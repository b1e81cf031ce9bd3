import CueRouter.Expression.Parser
import CueRouter.Proofs.Value.Literal
import Mathlib.Data.List.Forall2

/-!
# Which texts are expressions

A text is cut at its operator characters in one way only, and it is read exactly if every
piece is an operand: the expression has these operands and operators in the same order.
Otherwise the first piece that is none decides the fault. What an expression is made of can
be written in many ways, with names and literals and blanks around either, and is read back
from all of them.
-/

namespace CueRouter

open Text Text.Numeral

/-- None of the characters is an operator. -/
def OperatorFree (cs : List Char) : Prop := ∀ c ∈ cs, Operator.ofChar? c = none

instance (cs : List Char) : Decidable (OperatorFree cs) :=
  List.decidableBAll (fun c => Operator.ofChar? c = none) cs

/-- Only the symbols of operators are operators. -/
theorem Operator.ofChar?_eq_none {c : Char} (h : ∀ operator : Operator, operator.symbol ≠ c) :
    ofChar? c = none := by
  simp [ofChar?, h]

/-- Blank characters are no operators. -/
theorem operatorFree_of_blank {cs : List Char} (blank : Blank cs) : OperatorFree cs := by
  intro c member
  refine Operator.ofChar?_eq_none fun operator => ?_
  rintro rfl
  have symbol : isBlank operator.symbol = false := by cases operator <;> rfl
  rw [blank _ member] at symbol
  cases symbol

/-- Digits are no operators. -/
theorem ofChar?_of_isDigit {c : Char} (digit : isDigit c = true) : Operator.ofChar? c = none :=
  Operator.ofChar?_eq_none fun operator =>
    (ne_of_isDigit digit (by cases operator <;> rfl)).symm

namespace ExpressionText

/-! ## Cutting -/

/-- No piece holds an operator. -/
structure Cut (pieces : ExpressionText) : Prop where
  /-- There is none in the first piece. -/
  start : OperatorFree pieces.start
  /-- There is none in a later piece. -/
  steps : ∀ step ∈ pieces.steps, OperatorFree step.text

/-- The pieces in order, as texts. -/
def texts (pieces : ExpressionText) : List String :=
  String.ofList pieces.start :: pieces.steps.map fun step => String.ofList step.text

/-- The pieces and the expression have the same operators, and each piece is in the
relation with the operand at its place. -/
structure Matches (relation : String → Token → Prop) (pieces : ExpressionText)
    (expression : Expression) : Prop where
  /-- The first piece and the first operand. -/
  start : relation (String.ofList pieces.start) expression.start
  /-- The later pieces and operands with their operators. -/
  steps : List.Forall₂ (fun (piece : OperandText) (step : Step) =>
    piece.operator = step.operator ∧ relation (String.ofList piece.text) step.operand)
    pieces.steps expression.steps

/-- After cutting, no piece holds an operator. -/
theorem cut_ofChars (cs : List Char) : (ofChars cs).Cut := by
  induction cs with
  | nil => exact ⟨fun c member => (List.not_mem_nil member).elim,
      fun step member => (List.not_mem_nil member).elim⟩
  | cons c cs ih =>
    unfold ofChars
    dsimp only
    cases found : Operator.ofChar? c with
    | some operator =>
      refine ⟨fun c member => (List.not_mem_nil member).elim, ?_⟩
      exact List.forall_mem_cons.mpr ⟨ih.start, ih.steps⟩
    | none => exact ⟨List.forall_mem_cons.mpr ⟨found, ih.start⟩, ih.steps⟩

/-- Characters without operators stay in front of the first cut. -/
theorem ofChars_append_of_free {front : List Char} (free : OperatorFree front)
    (rest : List Char) :
    ofChars (front ++ rest) = ⟨front ++ (ofChars rest).start, (ofChars rest).steps⟩ := by
  induction front with
  | nil => rfl
  | cons c front ih =>
    obtain ⟨first, others⟩ := List.forall_mem_cons.mp free
    rw [List.cons_append, ofChars, first, ih others]
    rfl

/-- A text that is cut at an operator. -/
theorem ofChars_symbol_cons (operator : Operator) (rest : List Char) :
    ofChars (operator.symbol :: rest) =
      ⟨[], ⟨operator, (ofChars rest).start⟩ :: (ofChars rest).steps⟩ := by
  rw [ofChars, Operator.ofChar?_symbol]

/-- Pieces that hold no operators are what their text is cut into. -/
theorem ofChars_toChars {pieces : ExpressionText} (cut : pieces.Cut) :
    ofChars pieces.toChars = pieces := by
  obtain ⟨start, steps⟩ := pieces
  have behind : ∀ front, OperatorFree front →
      ofChars (front ++ steps.flatMap fun step => step.operator.symbol :: step.text) =
        ⟨front, steps⟩ := by
    have free := cut.steps
    clear cut
    dsimp only at free
    induction steps with
    | nil =>
      intro front hfront
      rw [ofChars_append_of_free hfront]
      exact congrArg (fun cs => (⟨cs, []⟩ : ExpressionText)) (List.append_nil front)
    | cons step steps ih =>
      intro front hfront
      obtain ⟨first, others⟩ := List.forall_mem_cons.mp free
      rw [ofChars_append_of_free hfront, List.flatMap_cons, List.cons_append,
        ofChars_symbol_cons, ih others step.text first]
      exact congrArg (fun cs => (⟨cs, step :: steps⟩ : ExpressionText)) (List.append_nil front)
  exact behind start cut.start

/-- What every piece is known to be in a wider relation to. -/
theorem Matches.mono {relation wider : String → Token → Prop} {pieces : ExpressionText}
    {expression : Expression} (h : pieces.Matches relation expression)
    (widens : ∀ text token, relation text token → wider text token) :
    pieces.Matches wider expression :=
  ⟨widens _ _ h.start, h.steps.imp fun _ _ both => ⟨both.1, widens _ _ both.2⟩⟩

/-- Pieces that match operands under a relation that allows no operators are cut. -/
theorem Matches.cut {relation : String → Token → Prop} {pieces : ExpressionText}
    {expression : Expression} (h : pieces.Matches relation expression)
    (free : ∀ text token, relation text token → OperatorFree text.toList) : pieces.Cut := by
  have plain {cs : List Char} {token : Token} (related : relation (String.ofList cs) token) :
      OperatorFree cs := by
    have known := free _ _ related
    rwa [String.toList_ofList] at known
  obtain ⟨start, steps⟩ := pieces
  obtain ⟨first, others⟩ := h
  refine ⟨plain first, ?_⟩
  clear first
  dsimp only at others ⊢
  generalize expression.steps = operands at others
  induction others with
  | nil => exact fun step member => (List.not_mem_nil member).elim
  | cons both _ ih => exact List.forall_mem_cons.mpr ⟨plain both.2, ih⟩

end ExpressionText

/-! ## The first fault -/

section FirstFault

variable {α β ε : Type} {f : α → Except ε β} {x : α} {xs : List α} {fault : ε}

/-- The fault is that of the first element for which there is one. -/
def FirstFault (f : α → Except ε β) (xs : List α) (fault : ε) : Prop :=
  ∃ before x after, xs = before ++ x :: after ∧ (∀ y ∈ before, ∃ z, f y = .ok z) ∧
    f x = .error fault

/-- There is no fault where there is no element. -/
theorem not_firstFault_nil : ¬FirstFault f [] fault := by
  rintro ⟨before, x, after, same, -⟩
  exact List.append_ne_nil_of_right_ne_nil _ (List.cons_ne_nil _ _) same.symm

/-- A fault of the element in front is the first. -/
theorem firstFault_cons_of_error {other : ε} (h : f x = .error other) :
    FirstFault f (x :: xs) fault ↔ other = fault := by
  constructor
  · rintro ⟨before, y, after, same, good, bad⟩
    cases before with
    | nil =>
      obtain ⟨rfl, -⟩ := List.cons.inj same
      exact Except.error.inj (h.symm.trans bad)
    | cons first before =>
      obtain ⟨rfl, -⟩ := List.cons.inj same
      obtain ⟨z, hz⟩ := good x List.mem_cons_self
      cases h.symm.trans hz
  · rintro rfl
    exact ⟨[], x, xs, rfl, fun y member => (List.not_mem_nil member).elim, h⟩

/-- An element without a fault in front makes no difference. -/
theorem firstFault_cons_of_ok {y : β} (h : f x = .ok y) :
    FirstFault f (x :: xs) fault ↔ FirstFault f xs fault := by
  constructor
  · rintro ⟨before, bad, after, same, good, hbad⟩
    cases before with
    | nil =>
      obtain ⟨rfl, -⟩ := List.cons.inj same
      cases h.symm.trans hbad
    | cons first before =>
      exact ⟨before, bad, after, (List.cons.inj same).2,
        fun z member => good z (List.mem_cons_of_mem _ member), hbad⟩
  · rintro ⟨before, bad, after, rfl, good, hbad⟩
    exact ⟨x :: before, bad, after, rfl, List.forall_mem_cons.mpr ⟨⟨y, h⟩, good⟩, hbad⟩

end FirstFault

/-! ## Reading the pieces -/

/-- All elements have a result exactly if each has the one at its place. -/
theorem mapM_eq_ok_iff {α β ε : Type} {f : α → Except ε β} {xs : List α} {ys : List β} :
    xs.mapM f = .ok ys ↔ List.Forall₂ (fun x y => f x = .ok y) xs ys := by
  induction xs generalizing ys with
  | nil => cases ys <;> simp [pure, Except.pure]
  | cons x xs ih =>
    rw [List.mapM_cons]
    cases first : f x with
    | error fault => cases ys <;> simp [bind, Except.bind, first]
    | ok y =>
      cases others : xs.mapM f with
      | error fault => cases ys <;> simp [bind, Except.bind, ← ih, others, first]
      | ok zs => cases ys <;> simp [bind, Except.bind, pure, Except.pure, ← ih, others, first]

namespace Scope

variable {scope : Scope} {keyNames : Bool} {text : String} {token : Token} {fault : ConfigFault}

/-- The text is read as the operand. -/
def ReadsAs (scope : Scope) (keyNames : Bool) (text : String) (token : Token) : Prop :=
  scope.readToken text keyNames = .ok token

/-- A later piece is read as a step with its operator and the operand that its text is
read as. -/
theorem readStep_eq_ok_iff {piece : OperandText} {step : Step} :
    scope.readStep keyNames piece = .ok step ↔
      piece.operator = step.operator ∧
        scope.ReadsAs keyNames (String.ofList piece.text) step.operand := by
  obtain ⟨operator, operand⟩ := step
  unfold readStep ReadsAs
  cases scope.readToken (String.ofList piece.text) keyNames <;>
    simp [bind, Except.bind, pure, Except.pure]

/-- The fault of the later pieces is that of the first one that is no operand. -/
theorem readSteps_eq_error_iff {pieces : List OperandText} :
    pieces.mapM (scope.readStep keyNames) = .error fault ↔
      FirstFault (scope.readToken · keyNames)
        (pieces.map fun piece => String.ofList piece.text) fault := by
  induction pieces with
  | nil => exact iff_of_false (fun h => by cases h) not_firstFault_nil
  | cons piece pieces ih =>
    rw [List.mapM_cons, List.map_cons]
    cases first : scope.readToken (String.ofList piece.text) keyNames with
    | error other =>
      refine Iff.trans ?_ (firstFault_cons_of_error (f := (scope.readToken · keyNames)) first).symm
      simp [readStep, first, bind, Except.bind]
    | ok token =>
      refine Iff.trans ?_
        (ih.trans (firstFault_cons_of_ok (f := (scope.readToken · keyNames)) first).symm)
      cases pieces.mapM (scope.readStep keyNames) <;>
        simp [readStep, first, bind, Except.bind, pure, Except.pure]

/-- A text is read as the expression whose operands its pieces are read as. -/
theorem readExpression_eq_ok_iff {expression : Expression} :
    scope.readExpression text keyNames = .ok expression ↔
      (ExpressionText.ofChars text.toList).Matches (scope.ReadsAs keyNames) expression := by
  obtain ⟨start, steps⟩ := expression
  unfold readExpression
  dsimp only
  generalize ExpressionText.ofChars text.toList = pieces
  have parts : pieces.Matches (scope.ReadsAs keyNames) ⟨start, steps⟩ ↔
      scope.readToken (String.ofList pieces.start) keyNames = .ok start ∧
        pieces.steps.mapM (scope.readStep keyNames) = .ok steps := by
    simp only [mapM_eq_ok_iff, readStep_eq_ok_iff]
    exact ⟨fun all => ⟨all.start, all.steps⟩, fun all => ⟨all.1, all.2⟩⟩
  rw [parts]
  cases scope.readToken (String.ofList pieces.start) keyNames <;>
    cases pieces.steps.mapM (scope.readStep keyNames) <;>
    simp [bind, Except.bind, pure, Except.pure]

/-- The fault of a text is that of its first piece that is no operand. -/
theorem readExpression_eq_error_iff :
    scope.readExpression text keyNames = .error fault ↔
      FirstFault (scope.readToken · keyNames)
        (ExpressionText.ofChars text.toList).texts fault := by
  unfold readExpression ExpressionText.texts
  dsimp only
  generalize ExpressionText.ofChars text.toList = pieces
  cases first : scope.readToken (String.ofList pieces.start) keyNames with
  | error other =>
    refine Iff.trans ?_ (firstFault_cons_of_error (f := (scope.readToken · keyNames)) first).symm
    simp [bind, Except.bind]
  | ok start =>
    refine Iff.trans ?_ (readSteps_eq_error_iff.trans
      (firstFault_cons_of_ok (f := (scope.readToken · keyNames)) first).symm)
    cases pieces.steps.mapM (scope.readStep keyNames) <;>
      simp [bind, Except.bind, pure, Except.pure]

end Scope

/-- The operands of the expression in order. -/
def Expression.tokens (expression : Expression) : List Token :=
  expression.start :: expression.steps.map Step.operand

namespace Scope

variable {scope : Scope} {keyNames : Bool} {text : String} {token : Token}

/-! ## Writing operands -/

/-- The operand that trimmed text names. -/
def nameToken? (scope : Scope) (keyNames : Bool) (text : String) : Option Token :=
  (scope.keyToken? text keyNames).or ((scope.fieldToken? text).or (scope.variableToken? text))

/-- The text is a way of writing the operand in the scope. -/
inductive Writes (scope : Scope) (keyNames : Bool) : String → Token → Prop
  /-- A constant is written as its value is, unless this is a name of something. -/
  | literal {v : Value} (plain : v.IsPlain) (nameless : scope.nameToken? keyNames v.text = none) :
      Writes scope keyNames v.text (.constant v)
  /-- What has a name without operators in it is written by its name. -/
  | name {name : String} {token : Token} (nonempty : trim name ≠ "") (free : OperatorFree name.toList)
      (resolves : scope.nameToken? keyNames (trim name) = some token) :
      Writes scope keyNames name token
  /-- There may be blank characters around an operand. -/
  | padded {before text after : String} {token : Token} (front : Blank before.toList)
      (back : Blank after.toList) (inner : Writes scope keyNames text token) :
      Writes scope keyNames (before ++ text ++ after) token

/-- Text with a name is read as what it names. -/
theorem readToken_of_nameToken? (nonempty : trim text ≠ "")
    (h : scope.nameToken? keyNames (trim text) = some token) :
    scope.readToken text keyNames = .ok token := by
  unfold readToken
  unfold nameToken? at h
  simp [nonempty, h]

/-- Text without a name is read as a literal. -/
theorem readToken_of_nameless (nonempty : trim text ≠ "")
    (h : scope.nameToken? keyNames (trim text) = none) :
    scope.readToken text keyNames = (Value.ofLiteral (trim text)).map Token.constant := by
  unfold readToken
  unfold nameToken? at h
  simp only [String.isEmpty_iff, nonempty, h, if_false]

/-- Blank characters around an operand make no difference. -/
theorem readToken_padded {before after : String} (front : Blank before.toList)
    (back : Blank after.toList) (text : String) :
    scope.readToken (before ++ text ++ after) keyNames = scope.readToken text keyNames := by
  unfold readToken
  rw [trim_append front back]

/-- Every way of writing an operand is read as this operand. -/
theorem Writes.readsAs (h : scope.Writes keyNames text token) :
    scope.ReadsAs keyNames text token := by
  induction h with
  | @literal v plain nameless =>
    have bare : trim v.text = v.text := by
      unfold trim
      rw [plain.trimChars_text, String.ofList_toList]
    have nonempty : trim v.text ≠ "" := by
      rw [bare]
      rintro empty
      refine plain.denotes.1.literal.1 ?_
      rw [empty]
      rfl
    unfold ReadsAs
    rw [readToken_of_nameless nonempty (bare.symm ▸ nameless), bare, plain.ofLiteral_text]
    rfl
  | name nonempty _ resolves => exact readToken_of_nameToken? nonempty resolves
  | padded front back _ ih =>
    unfold ReadsAs
    rw [readToken_padded front back]
    exact ih

/-- No operator is written inside an operand. -/
theorem Writes.free (h : scope.Writes keyNames text token) : OperatorFree text.toList := by
  induction h with
  | literal plain =>
    intro c member
    rcases plain.denotes.2 c member with digit | rfl
    · exact ofChar?_of_isDigit digit
    · exact Operator.ofChar?_eq_none fun operator => by cases operator <;> decide
  | name _ free => exact free
  | padded front back _ ih =>
    intro c member
    rw [String.toList_append, String.toList_append, List.mem_append, List.mem_append] at member
    rcases member with (before | inner) | after
    · exact operatorFree_of_blank front c before
    · exact ih c inner
    · exact operatorFree_of_blank back c after

/-- A text is the expression of the operands that its pieces are read as, and where a piece
is none, the first such piece decides the fault. The pieces are the only ones that the text
has between its operators. The expression is constant if all of its operands are, and then
it is folded to the value that it has for every event and store. However the operands of
an expression are written, the expression is read back. -/
theorem readExpression_grammar (scope : Scope) (text : String) (keyNames : Bool) :
    (∀ pieces : ExpressionText, pieces.Cut ∧ pieces.toChars = text.toList ↔
        pieces = ExpressionText.ofChars text.toList) ∧
      (∀ expression, scope.readExpression text keyNames = .ok expression ↔
        (ExpressionText.ofChars text.toList).Matches (scope.ReadsAs keyNames) expression) ∧
      (∀ fault, scope.readExpression text keyNames = .error fault ↔
        FirstFault (scope.readToken · keyNames)
          (ExpressionText.ofChars text.toList).texts fault) ∧
      (∀ expression, scope.readExpression text keyNames = .ok expression →
        (expression.isConstant = true ↔
          ∀ token ∈ expression.tokens, token.isConstant = true) ∧
        (expression.isConstant = true → ∃ value, expression.fold? = some value ∧
          ∀ event store, expression.evaluate event store = value)) ∧
      ∀ (written : ExpressionText) (expression : Expression),
        written.Matches (scope.Writes keyNames) expression →
        scope.readExpression (String.ofList written.toChars) keyNames = .ok expression := by
  refine ⟨fun pieces => ⟨?_, ?_⟩, fun _ => readExpression_eq_ok_iff,
    fun _ => readExpression_eq_error_iff, fun expression _ => ⟨?_, fun constant => ?_⟩,
    fun written expression operands => ?_⟩
  · rintro ⟨cut, same⟩
    rw [← same, ExpressionText.ofChars_toChars cut]
  · rintro rfl
    exact ⟨ExpressionText.cut_ofChars _, ExpressionText.toChars_ofChars _⟩
  · simp [Expression.isConstant, Expression.tokens]
  · have folded : expression.fold? = some (expression.evaluate .blank .empty) := by
      unfold Expression.fold?
      exact if_pos constant
    exact ⟨_, folded, fun event store => expression.evaluate_of_fold? folded event store⟩
  · rw [readExpression_eq_ok_iff, String.toList_ofList,
      ExpressionText.ofChars_toChars (operands.cut fun _ _ => Writes.free)]
    exact operands.mono fun _ _ => Writes.readsAs

/-- The scope of one variable. -/
def ofVariable (v : Variable) : Scope := ⟨none, ⟨[v], []⟩, .exact []⟩

/-- A long number, a variable and a range behind a space. -/
theorem readExpression_grammar_level :
    (ofVariable ⟨"level", .owned ⟨.int, .int 5⟩⟩).readExpression "2147483648*level- 3>4" false =
      .ok ⟨.constant (.long 2147483648), [⟨.multiply, .variableAt ⟨0⟩⟩,
        ⟨.subtract, .constant (.range ⟨3, 4⟩)⟩]⟩ := by
  have long : (Value.long 2147483648).text = "2147483648" := by decide +kernel
  have range : (Value.range ⟨3, 4⟩).text = "3>4" := by decide +kernel
  have first : (ofVariable ⟨"level", .owned ⟨.int, .int 5⟩⟩).Writes false "2147483648"
      (.constant (.long 2147483648)) := by
    rw [← long]
    exact .literal (by decide) (by rw [long]; decide)
  have second : (ofVariable ⟨"level", .owned ⟨.int, .int 5⟩⟩).Writes false "level"
      (.variableAt ⟨0⟩) := .name (by decide) (by decide) (by decide)
  have third : (ofVariable ⟨"level", .owned ⟨.int, .int 5⟩⟩).Writes false (" " ++ "3>4" ++ "")
      (.constant (.range ⟨3, 4⟩)) := by
    refine .padded (blank_of_spaces (by simp)) (blank_of_spaces (by simp)) ?_
    rw [← range]
    exact .literal (by decide) (by rw [range]; decide)
  exact (readExpression_grammar _ "" false).2.2.2.2
    ⟨"2147483648".toList, [⟨.multiply, "level".toList⟩, ⟨.subtract, " 3>4".toList⟩]⟩ _
    ⟨first, .cons ⟨rfl, second⟩ (.cons ⟨rfl, third⟩ .nil)⟩

end Scope

end CueRouter
