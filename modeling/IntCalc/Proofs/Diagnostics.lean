/-
**What the diagnostics of a line concern.**

A line has the diagnostics of its parse, and if it is faultless and its evaluation fails, that of the
fault (`Diagnostic.Concerns`). Each of them concerns whole characters of the line, at least one of
them unless it is about the end of the line (`Concerns.fits`). The reason is the same for all: the
span is that of a token of the line or of its end, or goes from one token to another. For lexical
faults that is how they are made, for the parser's see `Moves.span_of_mem_faults`, and a fault of an
evaluation stands at an operator, which is a leaf of the tree (`exists_broken_of_runtime`).

The messages quote no more of the line than its characters, so they do not break lines if the line
does not (`Concerns.single`).
-/
import IntCalc.Answer
import IntCalc.Proofs.Positions
import IntCalc.Proofs.Recognition
import IntCalc.Proofs.WellFormed

namespace IntCalc

/-! ### What concerns a line -/

/-- **A diagnostic is one of a line**: of its parse, or of the fault of its evaluation. -/
inductive Diagnostic.Concerns (text : String) : Diagnostic → Prop
  | malformed {diagnostic : Diagnostic} (listed : diagnostic ∈ (parse text).diagnostics) :
      Concerns text diagnostic
  | runtime {fault : Located EvalFault} (failed : answer text = .error (.runtime fault)) :
      Concerns text (fault.diagnostic EvalFault.message)

/-- The fault of a token of a line. -/
theorem exists_token_of_mem_lexFaults {text : String} {fault : Located LexFault}
    (member : fault ∈ (tokenize text).2) :
    ∃ token ∈ Token.scan 0 text.toList, token.fault? = some fault.value ∧
      fault.span = token.span := by
  rw [tokenize_eq_scan] at member
  obtain ⟨token, given, faulty⟩ := List.mem_filterMap.mp member
  obtain ⟨cause, found, rfl⟩ := Option.map_eq_some_iff.mp faulty
  exact ⟨token, given, found, rfl⟩

theorem fits_of_mem_parseFaults {text : String} {fault : Located ParseFault}
    (member : fault ∈ (parse text).parseFaults) : fault.span.Fits text := by
  rw [parseFaults_parse, faults_reportTrailing (haltedAtEnd_lineEnd text)] at member
  rcases List.mem_append.mp member with read | trailing
  · rcases (moves_line text).span_of_mem_faults read with none | ⟨token, pending, here⟩
    · cases none
    · rw [here]
      exact .of_mem_pending pending
  · cases rest : (lineEnd text).rest with
    | nil =>
      rw [rest] at trailing
      cases trailing
    | cons first others =>
      have given {token : Token} (left : token ∈ first :: others) : token ∈ significant text :=
        (moves_line text).rest_sublist.subset (rest ▸ left)
      rw [rest] at trailing
      rw [List.mem_singleton.mp trailing]
      exact .through (.of_mem_significant (given List.mem_cons_self))
        (.of_mem_significant (given List.getLastD_mem_cons))

/-! ### Operators that fail -/

/-- A faultless line is answered with what its tree evaluates to. -/
theorem answer_of_accepted {text : String} (accepted : (parse text).diagnostics = []) :
    answer text = (parse text).root.evaluate.mapError .runtime := by
  rw [answer, ParsedLine.answer, accepted]

/-- A line that fails with the fault of an evaluation is faultless as a line. -/
theorem accepted_of_runtime {text : String} {fault : Located EvalFault}
    (failed : answer text = .error (.runtime fault)) :
    (parse text).diagnostics = [] ∧ (parse text).root.evaluate = .error fault := by
  have accepted : (parse text).diagnostics = [] := by
    unfold answer ParsedLine.answer at failed
    split at failed
    · assumption
    · cases failed
  refine ⟨accepted, ?_⟩
  rw [answer_of_accepted accepted] at failed
  cases evaluated : (parse text).root.evaluate with
  | ok value =>
    rw [evaluated] at failed
    cases failed
  | error fault' =>
    rw [evaluated] at failed
    cases failed
    rfl

theorem arithmetic_root (text : String) : (parse text).root.Arithmetic := by
  have derived : (parse text).root.Derives .expr := ((reads_line text).derives trivial).1
  exact derived.wellFormed.mono fun _ => Expr.WellPlaced.isArithmetic

theorem Expr.operator?_mem_leaves {expr : Expr} {operator : Token}
    (own : expr.operator? = some operator) : operator ∈ expr.leaves := by
  cases expr with
  | number literal => cases own
  | unary operator' operand =>
    cases own
    exact List.mem_cons_self
  | binary left operator' right =>
    cases own
    exact List.mem_append_right _ List.mem_cons_self
  | paren opening inner closing => cases own

/-- **An evaluation of a line fails at an operator that breaks**, which is one of the significant tokens
of the line. -/
theorem exists_broken_of_runtime {text : String} {fault : Located EvalFault}
    (failed : answer text = .error (.runtime fault)) :
    ∃ broken ∈ (parse text).root.subexpressions, broken.Breaks ∧ ∃ operator ∈ significant text,
      broken.operator? = some operator ∧ fault = ⟨broken.cause, operator.span⟩ := by
  obtain ⟨accepted, evaluated⟩ := accepted_of_runtime failed
  have outcome := (arithmetic_root text).outcome
  rw [evaluated] at outcome
  cases outcome with
  | @fault earlier later broken operator inside first breaks own =>
    have member : broken ∈ (parse text).root.subexpressions := by
      rw [inside]
      exact List.mem_append_right _ List.mem_cons_self
    have leaf : operator ∈ (parse text).root.leaves :=
      (Expr.leaves_sublist_of_mem_subexpressions member).subset (Expr.operator?_mem_leaves own)
    rw [(spells_of_accepted accepted).leaves] at leaf
    exact ⟨broken, member, breaks, operator, leaf, own, rfl⟩

/-- **What is reported of a line** takes whole characters of it, or stands at its end. -/
theorem Diagnostic.Concerns.fits {text : String} {diagnostic : Diagnostic}
    (concerns : diagnostic.Concerns text) : diagnostic.span.Fits text := by
  cases concerns with
  | malformed listed =>
    rcases List.mem_append.mp listed with lexical | grammatical
    · obtain ⟨fault, member, rfl⟩ := List.mem_map.mp lexical
      obtain ⟨token, given, -, here⟩ := exists_token_of_mem_lexFaults member
      rw [Located.diagnostic, here]
      exact .of_mem_scan given
    · obtain ⟨fault, member, rfl⟩ := List.mem_map.mp grammatical
      exact fits_of_mem_parseFaults member
  | runtime failed =>
    obtain ⟨broken, -, -, operator, given, -, rfl⟩ := exists_broken_of_runtime failed
    exact .of_mem_significant given

/-! ### Messages -/

/-- The characters of a line that a message quotes. -/
def LexFault.quoted : LexFault → List Char
  | unexpectedCharacter char _ => [char]
  | numberOutOfRange digits => digits.toList

theorem single_repr (number : Nat) : '\n' ∉ number.repr.toList := by
  rw [Nat.toList_repr]
  intro member
  have digit := Nat.isDigit_of_mem_toDigits (by decide) (by decide) member
  exact absurd digit (by decide)

theorem LexFault.single_message {fault : LexFault} (single : '\n' ∉ fault.quoted) :
    '\n' ∉ fault.message.toList := by
  cases fault with
  | unexpectedCharacter char position =>
    have named : '\n' ∉ char.toString.toList := by simpa [quoted] using single
    show '\n' ∉ ("unexpected character '" ++ char.toString ++ "' at position " ++
      position.repr).toList
    simp only [String.toList_append, List.mem_append, not_or]
    exact ⟨⟨⟨by decide, named⟩, by decide⟩, single_repr position⟩
  | numberOutOfRange digits =>
    have greatest : '\n' ∉ Value.greatest.decimal.toList := single_repr 2147483647
    show '\n' ∉ ("invalid number '" ++ digits ++ "', valid range is [0, " ++
      Value.greatest.decimal ++ "]").toList
    simp only [String.toList_append, List.mem_append, not_or]
    exact ⟨⟨⟨⟨by decide, single⟩, by decide⟩, greatest⟩, by decide⟩

theorem Token.Kind.single_name (kind : Token.Kind) : '\n' ∉ kind.name.toList := by
  cases kind <;> decide

theorem ParseFault.single_message (fault : ParseFault) : '\n' ∉ fault.message.toList := by
  cases fault with
  | expectedExpression found =>
    show '\n' ∉ ("expected expression, got " ++ found.name).toList
    rw [String.toList_append, List.mem_append, not_or]
    exact ⟨by decide, found.single_name⟩
  | expectedCloseParen found =>
    show '\n' ∉ ("expected ')', got " ++ found.name).toList
    rw [String.toList_append, List.mem_append, not_or]
    exact ⟨by decide, found.single_name⟩
  | trailingInput | tooDeep | tooLong => decide

theorem EvalFault.single_message (fault : EvalFault) : '\n' ∉ fault.message.toList := by
  cases fault with
  | badOperator kind =>
    show '\n' ∉ (kind.name ++ " is not a valid operator here").toList
    rw [String.toList_append, List.mem_append, not_or]
    exact ⟨kind.single_name, by decide⟩
  | divisionByZero | overflow => decide

/-- The fault of a token quotes the token. -/
theorem Token.quoted_of_fault? {token : Token} {fault : LexFault}
    (found : token.fault? = some fault) : fault.quoted ⊆ token.text.toList := by
  unfold fault? at found
  split at found
  · rename_i text
    cases found
    rw [text]
    exact List.cons_subset_cons _ (List.nil_subset _)
  · cases found
    exact List.Subset.refl _
  · cases found

/-- **A message takes one line** if the line that it is about is one. -/
theorem Diagnostic.Concerns.single {text : String} {diagnostic : Diagnostic}
    (concerns : diagnostic.Concerns text) (single : '\n' ∉ text.toList) :
    '\n' ∉ diagnostic.message.toList := by
  cases concerns with
  | malformed listed =>
    rcases List.mem_append.mp listed with lexical | grammatical
    · obtain ⟨fault, member, rfl⟩ := List.mem_map.mp lexical
      obtain ⟨token, given, found, -⟩ := exists_token_of_mem_lexFaults member
      obtain ⟨front, back, whole, -⟩ := Token.exists_parts_of_mem_scan given
      refine LexFault.single_message fun quoted => single ?_
      rw [whole]
      exact List.mem_append_left _ (List.mem_append_right _ (Token.quoted_of_fault? found quoted))
    · obtain ⟨fault, -, rfl⟩ := List.mem_map.mp grammatical
      exact fault.value.single_message
  | @runtime fault failed => exact fault.value.single_message

end IntCalc
