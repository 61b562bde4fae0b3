/-
**Lexing texts put together.**

Two texts put together have the tokens of the first, and behind them those of the second, moved by
the size of the first, if no run of digits or blanks goes on across the seam; and their faults are
put together in the same way (`tokenize_append`). The reason is that scanning may be cut at such a
seam (`Token.scan_append`) and that a text further on is scanned as before (`Token.scan_shift`).

Blanks may well run together at the seam. They are one token then where each text had its own, but
this is all that changes: blanks in front of a text only move its other tokens
(`Token.visible_scan_blanks`). So for tokens that are not blank, and therefore for significant
tokens and for faults, it is enough that no numeral goes on (`significant_append`, `lexFaults_append`).
-/
import IntCalc.Proofs.Interleaving
import IntCalc.Proofs.Shifting
import Mathlib.Data.List.Basic

namespace IntCalc

/-! ### Seams without numerals -/

namespace Text

/-- No numeral goes on from one text into the next. -/
def NumeralsApart (front back : List Char) : Prop :=
  ∀ last ∈ front.getLast?, ∀ first ∈ back.head?, ¬ (last.isDigit = true ∧ first.isDigit = true)

instance (front back : List Char) : Decidable (NumeralsApart front back) :=
  @Option.decidableForallMem _ _ (fun _ => Option.decidableForallMem _) _

theorem Apart.numeralsApart {front back : List Char} (apart : Apart front back) :
    NumeralsApart front back :=
  fun last ends first starts => (apart last ends first starts).1

/-- What is left of a text after its first run meets the next text as the whole text does. -/
theorem NumeralsApart.dropWhile {first : Char} {rest back : List Char}
    (apart : NumeralsApart (first :: rest) back) (test : Char → Bool) :
    NumeralsApart (rest.dropWhile test) back := by
  intro last member
  refine apart last ?_
  obtain ⟨run, whole⟩ := List.dropWhile_suffix (l := rest) test
  rw [← whole, List.getLast?_cons, List.getLast?_append, Option.mem_def.mp member]
  rfl

/-- Behind a single run that is not blank, only a numeral could go on. -/
theorem NumeralsApart.apart {first : Char} {rest back : List Char}
    (numerals : NumeralsApart (first :: rest) back) (ink : isBlank first = false)
    (run : ∀ char ∈ rest, (Token.Kind.ofChar first).continues char = true) :
    Apart (first :: rest) back := by
  intro last ends next starts
  have inked : isBlank last = false := by
    rcases List.mem_cons.mp (List.mem_of_getLast? ends) with rfl | inside
    · exact ink
    · have goesOn := run last inside
      rcases both_of_continues (continues_of_continues goesOn) goesOn with ⟨-, digit⟩ | ⟨blank, -⟩
      · exact isBlank_eq_false_of_isDigit digit
      · rw [blank] at ink
        cases ink
  refine ⟨numerals last ends next starts, fun ⟨blank, _⟩ => ?_⟩
  rw [blank] at inked
  cases inked

end Text

namespace Token

/-! ### Tokens that are not blank -/

/-- The tokens that are not blank. -/
def visible (tokens : List Token) : List Token := tokens.filter (·.kind ≠ .whitespace)

theorem visible_cons_of_blank {token : Token} (blank : token.kind = .whitespace)
    (tokens : List Token) : visible (token :: tokens) = visible tokens :=
  List.filter_cons_of_neg (by simp [blank])

theorem visible_cons_of_ne {token : Token} (ink : token.kind ≠ .whitespace)
    (tokens : List Token) : visible (token :: tokens) = token :: visible tokens :=
  List.filter_cons_of_pos (by simp [ink])

theorem visible_append (front back : List Token) :
    visible (front ++ back) = visible front ++ visible back :=
  List.filter_append ..

theorem visible_shift (distance : Nat) (tokens : List Token) :
    visible (tokens.map (shift distance)) = (visible tokens).map (shift distance) :=
  List.filter_map ..

/-- Significant tokens are not blank. -/
theorem filter_significant_visible (tokens : List Token) :
    (visible tokens).filter (·.isSignificant) = tokens.filter (·.isSignificant) := by
  rw [visible, List.filter_filter]
  refine List.filter_congr fun token _ => ?_
  cases kind : token.kind <;> simp [isSignificant, Kind.isSignificant, kind]

/-- Blanks have no faults. -/
theorem faults_visible (tokens : List Token) : faults (visible tokens) = faults tokens := by
  rw [faults, visible, List.filterMap_filter]
  refine List.filterMap_congr fun token _ => ?_
  by_cases blank : token.kind = .whitespace
  · simp [blank, fault?]
  · simp [blank]

/-- The blanks that open a text only move its other tokens. -/
theorem visible_scan_dropWhile (position : Nat) (text : List Char) :
    visible (scan position text) =
      visible (scan (position + Text.byteLength (text.takeWhile Text.isBlank))
        (text.dropWhile Text.isBlank)) := by
  cases text with
  | nil => rfl
  | cons first rest =>
    cases blank : Text.isBlank first with
    | false => simp [blank]
    | true =>
      have kind : Kind.ofChar first = .whitespace := Kind.ofChar_eq_whitespace_iff.mpr blank
      have run : Kind.continues .whitespace = Text.isBlank := rfl
      rw [scan, visible_cons_of_blank kind, stop_opened, kind, run,
        List.takeWhile_cons_of_pos blank, List.dropWhile_cons_of_pos blank]

/-- **Blanks in front of a text only move its other tokens**, also if the text goes on with
blanks. -/
theorem visible_scan_blanks (position : Nat) {gap : List Char}
    (blank : ∀ char ∈ gap, Text.isBlank char = true) (rest : List Char) :
    visible (scan position (gap ++ rest)) =
      visible (scan (position + Text.byteLength gap) rest) := by
  rw [visible_scan_dropWhile position, List.takeWhile_append_of_pos blank,
    List.dropWhile_append_of_pos blank, Text.byteLength_append, ← Nat.add_assoc,
    ← visible_scan_dropWhile]

/-- **A text is scanned in two parts, up to blanks**, if no numeral goes on across the seam. -/
theorem visible_scan_append {front back : List Char} (position : Nat)
    (apart : Text.NumeralsApart front back) :
    visible (scan position (front ++ back)) =
      visible (scan position front) ++
        visible (scan (position + Text.byteLength front) back) := by
  fun_induction scan position front with
  | case1 position => rfl
  | case2 position first rest ih =>
    have behind := ih (apart.dropWhile _)
    rw [stop_opened_add] at behind
    cases blank : Text.isBlank first with
    | true =>
      have kind : Kind.ofChar first = .whitespace := Kind.ofChar_eq_whitespace_iff.mpr blank
      have isRun : (Kind.ofChar first).continues = Text.isBlank := by rw [kind]; rfl
      -- the run may go on behind the seam, so only its blanks in front of the seam are taken off
      have whole : first :: rest ++ back =
          (first :: rest.takeWhile Text.isBlank) ++ (rest.dropWhile Text.isBlank ++ back) := by
        simp only [List.cons_append, ← List.append_assoc, List.takeWhile_append_dropWhile]
      have run : ∀ char ∈ first :: rest.takeWhile Text.isBlank, Text.isBlank char = true :=
        List.forall_mem_cons.mpr ⟨blank, fun char member => List.mem_takeWhile_imp member⟩
      rw [stop_opened, isRun] at behind
      rw [whole, visible_scan_blanks position run, behind, visible_cons_of_blank kind, stop_opened,
        isRun]
    | false =>
      obtain ⟨taken, left⟩ :=
        Text.takeWhile_append_of_ends fun run => (apart.apart blank run).ends run
      have same : opened position first (rest ++ back) = opened position first rest := by
        simp only [opened, taken]
      have ink : (opened position first rest).kind ≠ .whitespace := fun kind => by
        rw [Kind.ofChar_eq_whitespace_iff.mp kind] at blank
        cases blank
      rw [List.cons_append, scan, same, left, visible_cons_of_ne ink, visible_cons_of_ne ink,
        behind, List.cons_append]

end Token

/-! ### Lines put together -/

/-- Two lines put together have the significant tokens of both, if no numeral goes on. -/
theorem significant_append {front back : String}
    (apart : Text.NumeralsApart front.toList back.toList) :
    significant (front ++ back) =
      significant front ++ (significant back).map (Token.shift front.utf8ByteSize) := by
  have scanned := Token.visible_scan_append 0 apart
  rw [Token.scan_shift, Token.visible_shift, ← Text.utf8ByteSize_eq_byteLength] at scanned
  rw [significant_eq_scan, significant_eq_scan, significant_eq_scan, String.toList_append,
    ← Token.filter_significant_visible, scanned, List.filter_append, List.filter_map,
    Token.filter_significant_visible, ← Token.filter_significant_visible (Token.scan 0 back.toList)]
  rfl

/-- Two lines put together have the faults of tokens of both, if no numeral goes on. -/
theorem lexFaults_append {front back : String}
    (apart : Text.NumeralsApart front.toList back.toList) :
    (tokenize (front ++ back)).2 =
      (tokenize front).2 ++ (tokenize back).2.map (Located.moved front.utf8ByteSize) := by
  have scanned := congrArg Token.faults (Token.visible_scan_append 0 apart)
  rw [Token.faults_append, Token.faults_visible, Token.faults_visible, Token.faults_visible,
    Token.scan_shift, Token.faults_shift, ← Text.utf8ByteSize_eq_byteLength] at scanned
  rw [tokenize_eq_scan, tokenize_eq_scan, tokenize_eq_scan, String.toList_append]
  exact scanned

/-- **Lexing is compositional.** If no run of digits or blanks goes on from one text into the next,
the tokens of both together are those of the first without the one for its end, and behind them
those of the second, moved by the size of the first. The faults of tokens are put together likewise; the
places that are named in them move as well. -/
theorem tokenize_append {front back : String} (apart : Text.Apart front.toList back.toList) :
    (tokenize (front ++ back)).1 =
        Token.proper (tokenize front).1 ++
          (tokenize back).1.map (Token.shift front.utf8ByteSize) ∧
      (tokenize (front ++ back)).2 =
        (tokenize front).2 ++ (tokenize back).2.map (Located.moved front.utf8ByteSize) := by
  refine ⟨?_, lexFaults_append apart.numeralsApart⟩
  have scanned := Token.scan_append 0 apart
  rw [Token.scan_shift, ← Text.utf8ByteSize_eq_byteLength] at scanned
  have ended : Token.proper [Token.endOfFile front.utf8ByteSize] = [] := rfl
  have last : (Token.endOfFile back.utf8ByteSize).shift front.utf8ByteSize =
      .endOfFile (front ++ back).utf8ByteSize := by
    rw [String.utf8ByteSize_append, Nat.add_comm]
    rfl
  rw [tokenize_eq_scan, tokenize_eq_scan, tokenize_eq_scan, String.toList_append, scanned,
    Token.proper_append, Token.proper_scan, ended, List.append_nil, List.map_append,
    List.map_singleton, last, List.append_assoc]

/-- There are faults on both sides of the seam; the letter in front of it takes two bytes. -/
theorem tokenize_append_accentedLetter :
    Text.Apart "é12".toList " 99999999999@".toList ∧
      (tokenize ("é12" ++ " 99999999999@")).1 =
        Token.proper (tokenize "é12").1 ++ (tokenize " 99999999999@").1.map (Token.shift 4) ∧
      (tokenize ("é12" ++ " 99999999999@")).2 =
        [⟨.unexpectedCharacter 'é' 0, ⟨0, 2⟩⟩, ⟨.numberOutOfRange "99999999999", ⟨5, 11⟩⟩,
          ⟨.unexpectedCharacter '@' 16, ⟨16, 1⟩⟩] := by
  have apart : Text.Apart "é12".toList " 99999999999@".toList := by decide
  obtain ⟨tokens, faults⟩ := tokenize_append apart
  exact ⟨apart, tokens, faults.trans (by decide +kernel)⟩

end IntCalc
