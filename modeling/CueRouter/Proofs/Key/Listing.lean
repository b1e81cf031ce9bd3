import CueRouter.Key.List
import CueRouter.Proofs.Expression.Reading
import CueRouter.Proofs.Text.Lookup
import CueRouter.Proofs.Text.Split

/-!
# Reading a written list of keys

Writing a keycode chooses one of its names, and reading looks a name up under a spelling
of its own. In a table whose names differ and are spelled as they are looked up, the name
chosen is one that is read as the keycode. Names that hold no comma and have nothing to
trim are cut out of the written list as they were put there, so a list that was read is
read again from what is written for it.
-/

namespace CueRouter.KeyNames

open Text

/-- The text can stand between the commas of a list as it is. -/
structure IsItem (item : String) : Prop where
  /-- There is nothing to trim. -/
  trimmed : trimChars item.toList = item.toList
  /-- It is not dropped. -/
  nonempty : item ≠ ""
  /-- It is not split. -/
  unsplit : ',' ∉ item.toList

/-- Whether a text can stand in a list can be read off its characters. -/
instance (item : String) : Decidable (IsItem item) :=
  decidable_of_iff (trimChars item.toList = item.toList ∧ item ≠ "" ∧ ',' ∉ item.toList)
    ⟨fun h => ⟨h.1, h.2.1, h.2.2⟩, fun h => ⟨h.trimmed, h.nonempty, h.unsplit⟩⟩

/-- What the table writes for its keycodes can stand in a list and is read as the keycode. -/
structure Faithful (names : KeyNames) : Prop where
  /-- The name written for a keycode can stand in a list. -/
  isItem : ∀ {name code}, names.code? name = some code → IsItem (names.writeItem code)
  /-- The name written for a keycode is a name of it. -/
  code?_writeItem : ∀ {name code}, names.code? name = some code →
    names.code? (names.writeItem code) = some code

variable {names : KeyNames} {codes : List Int32}

/-! ## Items -/

/-- Texts that can stand in a list are its items when they are joined with commas. -/
theorem listItems_joinWith {items : List String} (all : ∀ item ∈ items, IsItem item) :
    listItems (String.ofList (joinWith [','] (items.map String.toList))) = items := by
  have apart : Apart [','] (items.map String.toList) := by
    refine apart_of_closed fun piece member => ?_
    obtain ⟨item, among, rfl⟩ := List.mem_map.mp member
    exact closed_singleton (all item among).unsplit
  have trimmed : items.map ((fun item => String.ofList (trimChars item)) ∘ String.toList) =
      items := by
    refine List.map_congr_left (g := id) (fun item member => ?_) |>.trans (List.map_id _)
    dsimp only [Function.comp]
    rw [(all item member).trimmed, String.ofList_toList]
    rfl
  have kept : items.filter (fun item => !item.isEmpty) = items := by
    refine List.filter_eq_self.mpr fun item member => ?_
    simpa using (all item member).nonempty
  unfold listItems
  rw [String.toList_ofList]
  by_cases none : items = []
  · rw [none, List.map_nil, joinWith, splitOn_nil]
    rfl
  · rw [splitOn_joinWith apart (mt List.map_eq_nil_iff.mp none), List.map_map, trimmed, kept]

/-- What is written for keycodes comes apart into what is written for each of them. -/
theorem listItems_writeList (all : ∀ code ∈ codes, IsItem (names.writeItem code)) :
    listItems (names.writeList codes) = codes.map names.writeItem := by
  have joined := listItems_joinWith (List.forall_mem_map.mpr all)
  rwa [List.map_map] at joined

/-- An item is read as the keycode that has this name. -/
theorem readItem_eq_ok_iff {item : String} {code : Int32} :
    names.readItem item = .ok code ↔ names.code? item = some code := by
  unfold readItem
  cases names.code? item with
  | none => exact ⟨nofun, nofun⟩
  | some found => rw [Except.ok.injEq, Option.some.injEq]

/-- Every keycode of a list that was read has a name. -/
theorem exists_code?_of_mem_readList {text : String} (h : names.readList text = .ok codes) :
    ∀ code ∈ codes, ∃ name, names.code? name = some code := by
  intro code member
  have read := mapM_eq_ok_iff.mp h
  obtain ⟨place, bound, rfl⟩ := List.getElem_of_mem member
  have here := read.get (read.length_eq ▸ bound) bound
  exact ⟨_, readItem_eq_ok_iff.mp here⟩

/-- With a faithful table, keycodes that have names are read again from what is written for
them. -/
theorem Faithful.readList_writeList (h : names.Faithful)
    (named : ∀ code ∈ codes, ∃ name, names.code? name = some code) :
    names.readList (names.writeList codes) = .ok codes := by
  have items : listItems (names.writeList codes) = codes.map names.writeItem := by
    refine listItems_writeList fun code member => ?_
    obtain ⟨name, found⟩ := named code member
    exact h.isItem found
  unfold readList
  rw [items, mapM_eq_ok_iff, List.forall₂_map_left_iff, List.forall₂_same]
  intro code member
  obtain ⟨name, found⟩ := named code member
  exact readItem_eq_ok_iff.mpr (h.code?_writeItem found)

/-! ## Tables -/

section Entries

variable {entries : List Entry} {name : String} {code : Int32}

/-- A name is looked up among the entries. -/
theorem mem_of_findCode (h : findCode entries name = some code) : (name, code) ∈ entries :=
  mem_of_find?_fst h

/-- With different names, every entry is found by its name. -/
theorem findCode_of_mem (distinct : (entries.map Prod.fst).Nodup) (h : (name, code) ∈ entries) :
    findCode entries name = some code :=
  (find?_fst_eq_some_iff distinct).mpr h

/-- A keycode is named by one of the entries. -/
theorem mem_of_findName (h : findName entries code = some name) : (name, code) ∈ entries := by
  obtain ⟨entry, found, rfl⟩ := Option.map_eq_some_iff.mp h
  have coded : entry.2 = code := by simpa using List.find?_some found
  rw [← coded]
  exact List.mem_of_find?_eq_some found

/-- A keycode of an entry has a name, that of an entry for it. -/
theorem exists_findName_of_mem (h : (name, code) ∈ entries) :
    ∃ chosen, findName entries code = some chosen ∧ (chosen, code) ∈ entries := by
  have isSome : (entries.find? fun entry => entry.2 == code).isSome :=
    List.find?_isSome.mpr ⟨_, h, by simp⟩
  obtain ⟨entry, found⟩ := Option.isSome_iff_exists.mp isSome
  have first : findName entries code = some entry.1 := by simp [findName, found]
  exact ⟨entry.1, first, mem_of_findName first⟩

/-- A table is faithful if its names differ, can stand in a list, and are spelled the way
they are looked up. -/
theorem faithful_of_entries {spelling : String → String}
    (distinct : (entries.map Prod.fst).Nodup) (items : ∀ entry ∈ entries, IsItem entry.1)
    (spelled : ∀ entry ∈ entries, spelling entry.1 = entry.1) :
    Faithful ⟨fun name => findCode entries (spelling name), findName entries⟩ := by
  have written {name code} (found : findCode entries (spelling name) = some code) :
      ∃ chosen, (chosen, code) ∈ entries ∧
        writeItem ⟨fun name => findCode entries (spelling name), findName entries⟩ code =
          chosen := by
    obtain ⟨chosen, first, member⟩ := exists_findName_of_mem (mem_of_findCode found)
    refine ⟨chosen, member, ?_⟩
    show (findName entries code).getD _ = chosen
    rw [first]
    rfl
  refine ⟨fun found => ?_, fun {name code} found => ?_⟩
  · obtain ⟨chosen, member, same⟩ := written found
    rw [same]
    exact items _ member
  · obtain ⟨chosen, member, same⟩ := written found
    rw [same]
    show findCode entries (spelling chosen) = some code
    rw [spelled _ member]
    exact findCode_of_mem distinct member

end Entries

/-- The names of the standard table differ. -/
theorem nodup_standardEntries : (standardEntries.map Prod.fst).Nodup := by decide +kernel

/-- The names of the standard table can stand in a list and are in lower case. -/
theorem isItem_and_foldName_of_mem_standardEntries :
    ∀ entry ∈ standardEntries, IsItem entry.1 ∧ foldName entry.1 = entry.1 := by
  decide +kernel

/-- The standard table is faithful. -/
theorem faithful_standard : standard.Faithful :=
  faithful_of_entries nodup_standardEntries
    (fun entry member => (isItem_and_foldName_of_mem_standardEntries entry member).1)
    (fun entry member => (isItem_and_foldName_of_mem_standardEntries entry member).2)

/-- With the standard table, the keycodes of a list that was read are read again from the
list written for them. -/
theorem readList_writeList_of_readList {text : String} {codes : List Int32}
    (h : standard.readList text = .ok codes) :
    standard.readList (standard.writeList codes) = .ok codes :=
  faithful_standard.readList_writeList (exists_code?_of_mem_readList h)

/-- The keycodes of a list with capitals, blanks and empty items are read again. -/
theorem readList_writeList_of_readList_untidy :
    standard.readList " A,,Space , kp_ENTER,F12," = .ok [97, 32, 271, 293] ∧
      standard.writeList [97, 32, 271, 293] = "a,space,kp_enter,f12" ∧
      standard.readList (standard.writeList [97, 32, 271, 293]) = .ok [97, 32, 271, 293] := by
  have read : standard.readList " A,,Space , kp_ENTER,F12," = .ok [97, 32, 271, 293] := by
    decide +kernel
  exact ⟨read, by decide +kernel, readList_writeList_of_readList read⟩

end CueRouter.KeyNames
