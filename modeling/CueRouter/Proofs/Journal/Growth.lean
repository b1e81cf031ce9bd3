import CueRouter.Journal

/-!
# How a journal grows

Routing only ever adds to the journal. What was reported between two states of
it is what a collecting journal gained in diagnostics, and what a forwarding one
gained in warnings of that wording; a report made in a part of a run is one of
the whole run, and what is reported in all is what its parts report one after another.
-/

namespace CueRouter

namespace Journal

/-- The second journal is the first with more said and reported. -/
structure Extends (before after : Journal) : Prop where
  /-- Reports still go where they went. -/
  sink_eq : after.sink = before.sink
  /-- The messages so far stand in front. -/
  messages : ∃ more, after.messages.toList = before.messages.toList ++ more
  /-- The diagnostics so far stand in front. -/
  diagnostics : ∃ more, after.diagnostics.toList = before.diagnostics.toList ++ more

/-- Whether the diagnostic was reported between two states of a journal. -/
def Reports (before after : Journal) (diagnostic : Diagnostic) : Prop :=
  match before.sink with
  | .collecting => diagnostic ∈ after.diagnostics.toList.drop before.diagnostics.size
  | .forwarding =>
    ⟨.warn, diagnostic.message⟩ ∈ after.messages.toList.drop before.messages.size

/-- A journal extends itself by nothing. -/
theorem Extends.refl (journal : Journal) : journal.Extends journal where
  sink_eq := rfl
  messages := ⟨[], (List.append_nil _).symm⟩
  diagnostics := ⟨[], (List.append_nil _).symm⟩

/-- Growing twice is growing. -/
theorem Extends.trans {first second third : Journal} (h : first.Extends second)
    (k : second.Extends third) : first.Extends third where
  sink_eq := k.sink_eq.trans h.sink_eq
  messages := by
    obtain ⟨early, hearly⟩ := h.messages
    obtain ⟨late, hlate⟩ := k.messages
    refine ⟨early ++ late, ?_⟩
    rw [hlate, hearly, List.append_assoc]
  diagnostics := by
    obtain ⟨early, hearly⟩ := h.diagnostics
    obtain ⟨late, hlate⟩ := k.diagnostics
    refine ⟨early ++ late, ?_⟩
    rw [hlate, hearly, List.append_assoc]

/-- A message makes the journal grow. -/
theorem extends_note (journal : Journal) (level : Level) (text : String) :
    journal.Extends (journal.note level text) where
  sink_eq := rfl
  messages := ⟨_, Array.toList_push⟩
  diagnostics := ⟨[], (List.append_nil _).symm⟩

/-- A report makes the journal grow. -/
theorem extends_report (journal : Journal) (diagnostic : Diagnostic) :
    journal.Extends (journal.report diagnostic) := by
  unfold report
  cases journal.sink with
  | forwarding => exact extends_note journal _ _
  | collecting =>
    constructor
    · rfl
    · exact ⟨_, Array.toList_push⟩
    · exact ⟨_, Array.toList_push⟩

/-- A collecting journal keeps reports at the end, in order. -/
theorem diagnostics_reportAll {journal : Journal} (collecting : journal.sink = .collecting)
    (diagnostics : List Diagnostic) :
    (journal.reportAll diagnostics).diagnostics.toList =
      journal.diagnostics.toList ++ diagnostics := by
  induction diagnostics generalizing journal with
  | nil => exact (List.append_nil _).symm
  | cons diagnostic rest ih =>
    have still : (journal.report diagnostic).sink = .collecting := by
      unfold report
      rw [collecting]
      exact collecting
    have later := ih still
    rw [diagnostics_report collecting, Array.toList_push, List.append_assoc] at later
    exact later

/-- A report is one that was made. -/
theorem reports_report (journal : Journal) (diagnostic : Diagnostic) :
    journal.Reports (journal.report diagnostic) diagnostic := by
  unfold Reports report
  cases journal.sink with
  | forwarding => simp [note]
  | collecting => simp [note]

/-- What is added in the middle stands behind the beginning. -/
theorem mem_drop_of_mem_drop {α : Type} {first second third fourth : List α}
    (h : ∃ more, second = first ++ more) (i : ∃ more, third = second ++ more)
    (j : ∃ more, fourth = third ++ more) {x : α} (hx : x ∈ third.drop second.length) :
    x ∈ fourth.drop first.length := by
  obtain ⟨early, rfl⟩ := h
  obtain ⟨middle, rfl⟩ := i
  obtain ⟨late, rfl⟩ := j
  rw [List.drop_left] at hx
  rw [List.append_assoc, List.append_assoc, List.drop_left]
  exact List.mem_append_right _ (List.mem_append_left _ hx)

/-- A report made in a part of a run is a report of the run. -/
theorem Reports.mono {first second third fourth : Journal} {diagnostic : Diagnostic}
    (h : first.Extends second) (i : second.Extends third) (j : third.Extends fourth)
    (reported : second.Reports third diagnostic) :
    first.Reports fourth diagnostic := by
  unfold Reports at reported ⊢
  rw [h.sink_eq] at reported
  cases hs : first.sink with
  | collecting =>
    rw [hs] at reported
    exact mem_drop_of_mem_drop h.diagnostics i.diagnostics j.diagnostics reported
  | forwarding =>
    rw [hs] at reported
    exact mem_drop_of_mem_drop h.messages i.messages j.messages reported

/-- Nothing is reported where the journal stays as it is. -/
theorem not_reports_self (journal : Journal) (diagnostic : Diagnostic) :
    ¬journal.Reports journal diagnostic := by
  unfold Reports
  rw [← Array.length_toList, ← Array.length_toList, List.drop_length, List.drop_length]
  cases journal.sink <;> exact List.not_mem_nil

/-- What is behind the beginning was added in one of two parts. -/
theorem mem_drop_or_mem_drop {α : Type} {first second third : List α}
    (h : ∃ more, second = first ++ more) (i : ∃ more, third = second ++ more) {x : α}
    (hx : x ∈ third.drop first.length) :
    x ∈ second.drop first.length ∨ x ∈ third.drop second.length := by
  obtain ⟨early, rfl⟩ := h
  obtain ⟨late, rfl⟩ := i
  rw [List.append_assoc, List.drop_left] at hx
  rw [List.drop_left, List.drop_left]
  exact List.mem_append.mp hx

/-- A report of a run was made in one of its two parts. -/
theorem Reports.split {first second third : Journal} {diagnostic : Diagnostic}
    (h : first.Extends second) (i : second.Extends third)
    (reported : first.Reports third diagnostic) :
    first.Reports second diagnostic ∨ second.Reports third diagnostic := by
  unfold Reports at reported ⊢
  rw [h.sink_eq]
  cases hs : first.sink with
  | collecting =>
    rw [hs] at reported
    exact mem_drop_or_mem_drop h.diagnostics i.diagnostics reported
  | forwarding =>
    rw [hs] at reported
    exact mem_drop_or_mem_drop h.messages i.messages reported

/-- A message that is no warning reports nothing. -/
theorem not_reports_note (journal : Journal) {level : Level} (h : level ≠ .warn)
    (text : String) (diagnostic : Diagnostic) :
    ¬journal.Reports (journal.note level text) diagnostic := by
  unfold Reports note
  cases journal.sink with
  | collecting =>
    dsimp only
    rw [← Array.length_toList, List.drop_length]
    exact List.not_mem_nil
  | forwarding => simp [h.symm]

/-- What one report reports has its wording. -/
theorem message_of_reports_report {journal : Journal} {made reported : Diagnostic}
    (h : journal.Reports (journal.report made) reported) :
    reported.message = made.message := by
  unfold Reports report at h
  cases hs : journal.sink with
  | collecting =>
    rw [hs] at h
    have same : reported = made := by simpa [note] using h
    rw [same]
  | forwarding =>
    rw [hs] at h
    simpa [note] using h

/-! ## Everything that was reported -/

/-- The messages that are warnings, in order. -/
def warnings (journal : Journal) : List Message :=
  journal.messages.toList.filter fun message => message.level = .warn

/-- Between two states of a journal exactly these diagnostics were reported, in this
order, whatever else was said. -/
structure Gains (before after : Journal) (reported : List Diagnostic) : Prop where
  /-- Reports still go where they went. -/
  sink_eq : after.sink = before.sink
  /-- A collecting journal keeps them behind what it kept before. -/
  diagnostics : before.sink = .collecting →
    after.diagnostics.toList = before.diagnostics.toList ++ reported
  /-- A forwarding journal warns of them behind the warnings before. -/
  warnings : before.sink = .forwarding →
    after.warnings = before.warnings ++ reported.map fun made => ⟨.warn, made.message⟩

/-- Where the journal stays as it is, nothing is reported. -/
theorem Gains.refl (journal : Journal) : journal.Gains journal [] where
  sink_eq := rfl
  diagnostics _ := (List.append_nil _).symm
  warnings _ := (List.append_nil _).symm

/-- What is reported in two parts of a run is reported in the whole of it. -/
theorem Gains.trans {first second third : Journal} {early late : List Diagnostic}
    (h : first.Gains second early) (k : second.Gains third late) :
    first.Gains third (early ++ late) where
  sink_eq := k.sink_eq.trans h.sink_eq
  diagnostics collecting := by
    rw [k.diagnostics (h.sink_eq.trans collecting), h.diagnostics collecting,
      List.append_assoc]
  warnings forwarding := by
    rw [k.warnings (h.sink_eq.trans forwarding), h.warnings forwarding, List.map_append,
      List.append_assoc]

/-- A message that is no warning reports nothing. -/
theorem gains_note (journal : Journal) {level : Level} (h : level ≠ .warn) (text : String) :
    journal.Gains (journal.note level text) [] where
  sink_eq := rfl
  diagnostics _ := (List.append_nil _).symm
  warnings _ := by simp [Journal.warnings, note, h]

/-- A report reports its diagnostic. -/
theorem gains_report (journal : Journal) (diagnostic : Diagnostic) :
    journal.Gains (journal.report diagnostic) [diagnostic] where
  sink_eq := (extends_report journal diagnostic).sink_eq
  diagnostics collecting := by
    rw [diagnostics_report collecting, Array.toList_push]
  warnings forwarding := by
    unfold report
    rw [forwarding]
    simp [Journal.warnings, note]

end Journal

/-! ## Wordings -/

/-- A text starts with the first character of its first part. -/
theorem head?_toList_append {text rest : String} {c : Char}
    (h : text.toList.head? = some c) : (text ++ rest).toList.head? = some c := by
  rw [String.toList_append, List.head?_append, h, Option.some_or]

/-- The first character in the wording of a dispatch fault, another one for each
kind. -/
def DispatchFault.initial : DispatchFault → Char
  | poolExhausted _ => 'e'
  | indexNotScalar _ => 'i'
  | systemVariable _ => 'v'
  | missingReference _ _ => '\''
  | invalidValue _ => 'a'
  | recursionLimit _ _ => 'd'

/-- The wording of a dispatch fault starts with its initial. -/
theorem DispatchFault.head?_message (fault : DispatchFault) :
    fault.message.toList.head? = some fault.initial := by
  cases fault with
  | poolExhausted event =>
    exact head?_toList_append (head?_toList_append rfl)
  | indexNotScalar event =>
    exact head?_toList_append (head?_toList_append rfl)
  | systemVariable name =>
    exact head?_toList_append (head?_toList_append rfl)
  | missingReference event field =>
    exact head?_toList_append (head?_toList_append
      (head?_toList_append (head?_toList_append rfl)))
  | invalidValue field =>
    exact head?_toList_append (head?_toList_append rfl)
  | recursionLimit limit event =>
    exact head?_toList_append (head?_toList_append
      (head?_toList_append (head?_toList_append rfl)))

/-- Dispatch faults with one wording are of one kind. -/
theorem DispatchFault.initial_eq {one other : DispatchFault}
    (h : (Diagnostic.dispatch one).message = (Diagnostic.dispatch other).message) :
    one.initial = other.initial := by
  have texts := congrArg String.toList h
  simp only [Diagnostic.message, String.toList_append, List.append_cancel_left_eq] at texts
  have first := congrArg List.head? texts
  rw [head?_message, head?_message] at first
  exact Option.some.inj first

/-- Configuration faults and dispatch faults are worded differently. -/
theorem Diagnostic.message_config_ne (fault : ConfigFault) (context : Option String)
    (other : DispatchFault) :
    (Diagnostic.config fault context).message ≠ (Diagnostic.dispatch other).message := by
  intro same
  have texts := congrArg String.toList same
  cases context <;> simp [Diagnostic.message] at texts

end CueRouter
