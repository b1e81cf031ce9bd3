import CueRouter.Proofs.Expression.Reading
import CueRouter.Proofs.Variable.Naming

/-!
# Variables by their names

A variable is read back by its name exactly if there is no operator in it: expressions are
cut at operators before anything is looked up. Declarations accept other names as well, and
what is written to such a variable cannot be read by any expression that is only its name.
-/

namespace CueRouter

open Text

/-- A text and its trimming hold the same operators. -/
theorem operatorFree_trim_iff (text : String) :
    OperatorFree (trim text).toList ↔ OperatorFree text.toList := by
  obtain ⟨before, after, front, back, whole⟩ := exists_blank_around_trimChars text.toList
  rw [toList_trim]
  constructor
  · intro free c member
    rw [whole, List.mem_append, List.mem_append] at member
    rcases member with (first | inner) | last
    · exact operatorFree_of_blank front c first
    · exact free c inner
    · exact operatorFree_of_blank back c last
  · intro free c member
    have inside : c ∈ before ++ trimChars text.toList ++ after := by simp [member]
    exact free c (whole ▸ inside)

namespace Scope

variable {scope : Scope} {keyNames : Bool} {text : String} {handle : Handle}

/-- The text is an expression that is the variable, and whatever is stored there, however
the variables are used in between, is its value. -/
def Recalls (scope : Scope) (text : String) (handle : Handle) : Prop :=
  ∃ expression, scope.readExpression text false = .ok expression ∧
    expression.toVariable? = some handle ∧
    ∀ later value event written,
      (scope.store.afterAll later).set handle value = .ok written →
        expression.evaluate event written.store = written.stored

/-- A text without operators is read as one operand. -/
theorem readExpression_of_free (free : OperatorFree text.toList) {token : Token}
    (read : scope.readToken text keyNames = .ok token) :
    scope.readExpression text keyNames = .ok ⟨token, []⟩ := by
  have whole : ExpressionText.ofChars text.toList = ⟨text.toList, []⟩ := by
    have cut := ExpressionText.ofChars_append_of_free free []
    rw [List.append_nil, ExpressionText.ofChars, List.append_nil] at cut
    exact cut
  rw [readExpression_eq_ok_iff, whole]
  refine ⟨?_, .nil⟩
  unfold ReadsAs
  rw [String.ofList_toList]
  exact read

/-- Only a text without operators is read as a variable. -/
theorem operatorFree_of_toVariable? {expression : Expression}
    (read : scope.readExpression text keyNames = .ok expression)
    (single : expression.toVariable? = some handle) : OperatorFree text.toList := by
  have pieces := readExpression_eq_ok_iff.mp read
  have last : expression.steps = [] := by
    unfold Expression.toVariable? at single
    split at single
    · rfl
    · cases single
  have none : (ExpressionText.ofChars text.toList).steps = [] := by
    have steps := pieces.steps
    rw [last] at steps
    exact List.forall₂_nil_right_iff.mp steps
  have start : (ExpressionText.ofChars text.toList).start = text.toList := by
    have all := ExpressionText.toChars_ofChars text.toList
    unfold ExpressionText.toChars at all
    rw [none, List.flatMap_nil, List.append_nil] at all
    exact all
  rw [← start]
  exact (ExpressionText.cut_ofChars text.toList).start

/-- A variable is read back by its name exactly if there is no operator in the name. -/
theorem recalls_iff {uses : List Use} (used : scope.store = Store.empty.afterAll uses)
    {v : Variable} (found : scope.store.get? handle = some v) (called : trim text = v.name)
    (other : scope.fieldToken? v.name = none) :
    scope.Recalls text handle ↔ OperatorFree v.name.toList := by
  have named : scope.store.Named := used ▸ Store.Named.empty.afterAll uses
  rw [← called, operatorFree_trim_iff]
  constructor
  · rintro ⟨expression, read, single, -⟩
    exact operatorFree_of_toVariable? read single
  · intro free
    have member : v.name ∈ scope.store.names :=
      List.mem_map_of_mem (List.mem_of_getElem? found)
    have nonempty : trim text ≠ "" := called ▸ named.nonempty v.name member
    have lookup : scope.store.lookup v.name = some handle := by
      rw [named.lookup_eq_some_iff, found, named.trimmed v.name member]
      rfl
    have resolves : scope.nameToken? false (trim text) = some (.variableAt handle) := by
      unfold nameToken? keyToken? variableToken?
      rw [called, other, lookup]
      rfl
    refine ⟨⟨.variableAt handle, []⟩,
      readExpression_of_free free (readToken_of_nameToken? nonempty resolves), rfl, ?_⟩
    intro later value event written h
    have again : scope.store.afterAll later = Store.empty.afterAll (uses ++ later) := by
      rw [used]
      exact (List.foldl_append).symm
    rw [again] at h
    exact (Store.Built.empty.afterAll (uses ++ later)).sound.value_of_set h

/-- A level is read back by its name. -/
theorem recalls_iff_level :
    (Scope.mk none (Store.empty.afterAll [.call (.declareValue " level" .int (.int 5))])
      (.exact [])).Recalls "level " ⟨0⟩ := by
  have found : (Store.empty.afterAll [.call (.declareValue " level" .int (.int 5))]).get? ⟨0⟩ =
      some ⟨"level", .owned ⟨.int, .int 5⟩⟩ := by decide
  refine (recalls_iff rfl found ?_ rfl).mpr ?_
  · decide
  · decide

/-- The third of three variables is named like the difference of the first two, and is not
read back by its name. -/
theorem not_recalls_difference :
    ¬∀ (uses : List Use) (scope : Scope) (handle : Handle) (v : Variable),
      scope.store = Store.empty.afterAll uses → scope.store.get? handle = some v →
        scope.fieldToken? v.name = none → scope.Recalls v.name handle := by
  intro all
  have found : (Store.empty.afterAll [.call (.declareValue "A" .int (.int 5)),
      .call (.declareValue "B" .int (.int 3)), .call (.declareValue "A-B" .int (.int 7))]).get?
        ⟨2⟩ = some ⟨"A-B", .owned ⟨.int, .int 7⟩⟩ := by decide
  have read : (Scope.mk none (Store.empty.afterAll [.call (.declareValue "A" .int (.int 5)),
      .call (.declareValue "B" .int (.int 3)), .call (.declareValue "A-B" .int (.int 7))])
        (.exact [])).readExpression "A-B" false =
      .ok ⟨.variableAt ⟨0⟩, [⟨.subtract, .variableAt ⟨1⟩⟩]⟩ := by decide
  obtain ⟨expression, other, single, -⟩ := all _ ⟨none, _, .exact []⟩ _ _ rfl found rfl
  cases read.symm.trans other
  cases single

end Scope

end CueRouter
