/-
**Tokens may be drawn in every mixture of ways.**

A lexer gives its tokens one by one, directly (`Lexer.next`) or in the manner of an iterator
(`Lexer.next?`), or all that the iterator still has at once (`Lexer.remaining`). The three share the
position in the line, and the end of the line is told by each side for itself: directly again and
again, by the iterator once.

For every row of calls the tokens that are given, but for those for the end of the line, are the
first ones of the line, in order; the end is told only behind all of them; and the faults that are
recorded are those of the tokens given so far (`orderly_draws`).

`Lexer.Gives` lists the four things that a call can do, with all that it changes (`gives_give`). The
invariant `Draws.Coherent` ties the state of the lexer to what has been given: the tokens still to
come follow on those given, and the lexer is finished exactly if the iterator has told the end. With
it each of the four keeps the row in order (`Draws.Orderly.call`).
-/
import IntCalc.Proofs.Scan

namespace IntCalc

/-! ### Lists taken apart -/

/-- An item of two lists is one of the second or one of the first. -/
theorem append_eq_append_cons {α : Type} {front back earlier later : List α} {item : α}
    (split : front ++ back = earlier ++ item :: later) :
    (∃ middle, earlier = front ++ middle ∧ back = middle ++ item :: later) ∨
      ∃ middle, front = earlier ++ item :: middle := by
  rcases List.append_eq_append_iff.mp split with ⟨middle, before, behind⟩ | ⟨middle, before, behind⟩
  · exact .inl ⟨middle, before, behind⟩
  · cases middle with
    | nil => exact .inl ⟨[], by simpa using before.symm, behind.symm⟩
    | cons head middle =>
      obtain ⟨rfl, -⟩ := List.cons.inj behind
      exact .inr ⟨middle, before⟩

theorem singleton_eq_append_cons {α : Type} {only item : α} {earlier later : List α}
    (split : [only] = earlier ++ item :: later) : earlier = [] ∧ item = only := by
  rcases List.singleton_eq_append_iff.mp split with ⟨none, same⟩ | ⟨-, same⟩
  · exact ⟨none, (List.cons.inj same).1⟩
  · cases same

/-! ### The end among tokens -/

namespace Token

def isEnd (token : Token) : Bool := token.kind = .endOfFile

/-- The tokens without those for the end of the line. -/
def proper (tokens : List Token) : List Token := tokens.filter (!·.isEnd)

/-- The end of the line has been told. -/
def Ended (tokens : List Token) : Prop := ∃ token ∈ tokens, token.isEnd = true

theorem isEnd_of_mem_scan {position : Nat} {text : List Char} {token : Token}
    (member : token ∈ scan position text) : token.isEnd = false := by
  fun_induction scan position text with
  | case1 position => cases member
  | case2 position first rest ih =>
    rcases List.mem_cons.mp member with rfl | later
    · exact decide_eq_false (Kind.ofChar_ne_endOfFile first)
    · exact ih later

theorem proper_append (front back : List Token) :
    proper (front ++ back) = proper front ++ proper back :=
  List.filter_append ..

theorem proper_singleton {token : Token} (inside : token.isEnd = false) :
    proper [token] = [token] := by
  rw [proper, List.filter_cons_of_pos (by rw [inside]; rfl), List.filter_nil]

theorem proper_scan (position : Nat) (text : List Char) :
    proper (scan position text) = scan position text := by
  refine List.filter_eq_self.mpr fun token member => ?_
  rw [isEnd_of_mem_scan member]
  rfl

theorem ended_append {front back : List Token} :
    Ended (front ++ back) ↔ Ended front ∨ Ended back := by
  simp only [Ended, List.mem_append, or_and_right, exists_or]

theorem ended_singleton {token : Token} : Ended [token] ↔ token.isEnd = true := by
  simp only [Ended, List.mem_singleton, exists_eq_left]

theorem not_ended_nil : ¬ Ended [] := by
  rintro ⟨token, member, -⟩
  cases member

theorem countP_isEnd_eq_zero {tokens : List Token} (going : ¬ Ended tokens) :
    tokens.countP (·.isEnd) = 0 :=
  List.countP_eq_zero.mpr fun token member told => going ⟨token, member, told⟩

theorem not_ended_scan (position : Nat) (text : List Char) : ¬ Ended (scan position text) := by
  rintro ⟨token, member, told⟩
  rw [isEnd_of_mem_scan member] at told
  cases told

theorem faults_append (front back : List Token) :
    faults (front ++ back) = faults front ++ faults back :=
  List.filterMap_append

theorem faults_endOfFile (position : Nat) : faults [endOfFile position] = [] := rfl

end Token

namespace Lexer

/-! ### Calls -/

/-- A way to draw tokens from a lexer. -/
inductive Call where
  | next
  | next?
  | remaining
  deriving DecidableEq, Repr

/-- The tokens that a call gives, and the lexer after it. -/
def give (lexer : Lexer) : Call → List Token × Lexer
  | .next => ([lexer.next.1], lexer.next.2)
  | .next? => (lexer.next?.1.toList, lexer.next?.2)
  | .remaining => lexer.remaining

/-- The tokens of the text that is left, without the one for its end. -/
def left (lexer : Lexer) : List Token := Token.scan lexer.position lexer.rest

/-- The token for the end of the line. -/
def ending (lexer : Lexer) : Token :=
  .endOfFile (lexer.position + Text.byteLength lexer.rest)

/-- **What a call can do**: the tokens that it gives, and all that it changes in the lexer. -/
inductive Gives (lexer : Lexer) : Call → List Token → Lexer → Prop
  /-- A token of the text is given. -/
  | token {call : Call} {token : Token} {after : Lexer}
      (permitted : call = .next ∨ lexer.finished = false)
      (first : lexer.left = token :: after.left) (ending : after.ending = lexer.ending)
      (faults : after.faults.toList = lexer.faults.toList ++ Token.faults [token])
      (finished : after.finished = lexer.finished) : Gives lexer call [token] after
  /-- The end is told directly, which changes nothing. -/
  | told (spent : lexer.left = []) : Gives lexer .next [lexer.ending] lexer
  /-- The iterator gives what is left and tells the end. -/
  | finish {call : Call} {after : Lexer} (iterates : call ≠ .next)
      (unfinished : lexer.finished = false) (spent : after.left = [])
      (ending : after.ending = lexer.ending)
      (faults : after.faults.toList = lexer.faults.toList ++ Token.faults lexer.left)
      (finished : after.finished = true) : Gives lexer call (lexer.left ++ [lexer.ending]) after
  /-- The iterator has told the end already. -/
  | nothing {call : Call} (iterates : call ≠ .next) (finished : lexer.finished = true) :
      Gives lexer call [] lexer

theorem left_of_spent {lexer : Lexer} (spent : lexer.rest = []) : lexer.left = [] := by
  rw [left, spent, Token.scan]

theorem ending_of_spent {lexer : Lexer} (spent : lexer.rest = []) :
    lexer.ending = .endOfFile lexer.position := by
  rw [ending, spent, Text.byteLength_nil, Nat.add_zero]

/-- As long as text is left, either way of drawing gives the first of the tokens left. -/
theorem gives_of_cons {lexer : Lexer} {first : Char} {rest : List Char} {call : Call}
    (unread : lexer.rest = first :: rest) (permitted : call = .next ∨ lexer.finished = false) :
    Gives lexer call [lexer.next.1] lexer.next.2 := by
  have next := next_of_cons unread
  refine .token permitted ?_ ?_ ?_ (finished_next lexer)
  · rw [next, left, unread, Token.scan]
    rfl
  · rw [next, ending, ending, unread, Token.stop_opened_add]
  · rw [next, noting_eq, Array.toList_append]

theorem next_of_spent {lexer : Lexer} (spent : lexer.rest = []) :
    lexer.next = (lexer.ending, lexer) := by
  rw [ending_of_spent spent, next, spent]

/-- The iterator goes on as the direct way does, and notes whether it has told the end. -/
theorem gives_next? {lexer : Lexer} (unfinished : lexer.finished = false) :
    Gives lexer .next? [lexer.next.1]
      { lexer.next.2 with finished := lexer.next.1.kind = .endOfFile } := by
  cases unread : lexer.rest with
  | nil =>
    have spent := left_of_spent unread
    have gives : Gives lexer .next? (lexer.left ++ [lexer.ending])
        { lexer with finished := lexer.ending.kind = .endOfFile } := by
      refine .finish (by decide) unfinished spent rfl ?_ rfl
      rw [spent, Token.faults, List.filterMap_nil, List.append_nil]
    rw [spent] at gives
    rw [next_of_spent unread]
    exact gives
  | cons first rest =>
    have going : lexer.next.1.kind ≠ .endOfFile := by
      rw [Ne, kind_next_eq_endOfFile_iff, unread]
      exact List.cons_ne_nil first rest
    have same :
        { lexer.next.2 with finished := lexer.next.1.kind = .endOfFile } = lexer.next.2 := by
      rw [decide_eq_false going, ← unfinished, ← finished_next lexer]
    rw [same]
    exact gives_of_cons unread (.inr unfinished)

theorem gives_remaining {lexer : Lexer} (unfinished : lexer.finished = false) :
    Gives lexer .remaining lexer.remaining.1 lexer.remaining.2 := by
  have gives : Gives lexer .remaining (lexer.left ++ [lexer.ending])
      ⟨[], lexer.position + Text.byteLength lexer.rest,
        lexer.faults ++ (Token.faults lexer.left).toArray, true⟩ := by
    refine .finish (by decide) unfinished (left_of_spent rfl) ?_ ?_ rfl
    · exact ending_of_spent rfl
    · rw [Array.toList_append]
  rw [remaining, drawAll_eq_scan _ _ unfinished]
  simp only [Array.empty_append]
  exact gives

/-- **Every call does one of the four things.** -/
theorem gives_give (lexer : Lexer) (call : Call) :
    Gives lexer call (lexer.give call).1 (lexer.give call).2 := by
  cases call with
  | next =>
    cases unread : lexer.rest with
    | nil =>
      rw [give, next_of_spent unread]
      exact .told (left_of_spent unread)
    | cons first rest => exact gives_of_cons unread (.inl rfl)
  | next? =>
    cases finished : lexer.finished with
    | true =>
      rw [give, next?_of_finished finished]
      exact .nothing (by decide) finished
    | false =>
      rw [give, next?_of_unfinished finished]
      exact gives_next? finished
  | remaining =>
    cases finished : lexer.finished with
    | true =>
      rw [give, remaining, drawAll_of_finished finished]
      exact .nothing (by decide) finished
    | false => exact gives_remaining finished

/-! ### What all four have in common -/

theorem proper_left (lexer : Lexer) : Token.proper lexer.left = lexer.left := Token.proper_scan ..

theorem not_ended_left (lexer : Lexer) : ¬ Token.Ended lexer.left :=
  Token.not_ended_scan lexer.position lexer.rest

theorem isEnd_of_mem_left {lexer : Lexer} {token : Token} (member : token ∈ lexer.left) :
    token.isEnd = false := Token.isEnd_of_mem_scan member

theorem isEnd_of_first {lexer : Lexer} {token : Token} {rest : List Token}
    (first : lexer.left = token :: rest) : token.isEnd = false :=
  isEnd_of_mem_left (first ▸ List.mem_cons_self)

namespace Gives

variable {lexer after : Lexer} {call : Call} {tokens : List Token}

/-- A call takes the tokens that it gives off those that are left. -/
theorem left_eq (gives : Gives lexer call tokens after) :
    lexer.left = Token.proper tokens ++ after.left := by
  cases gives with
  | token _ first =>
    rw [Token.proper_singleton (isEnd_of_first first), first]
    rfl
  | told => exact (List.nil_append _).symm
  | finish _ _ spent =>
    rw [spent, Token.proper_append, proper_left, List.append_nil]
    exact (List.append_nil _).symm
  | nothing => exact (List.nil_append _).symm

theorem ending_eq (gives : Gives lexer call tokens after) : after.ending = lexer.ending := by
  cases gives with
  | token _ _ ending => exact ending
  | finish _ _ _ ending => exact ending
  | told | nothing => rfl

/-- A call notes the faults of the tokens that it gives. -/
theorem faults_eq (gives : Gives lexer call tokens after) :
    after.faults.toList = lexer.faults.toList ++ Token.faults (Token.proper tokens) := by
  cases gives with
  | token _ first _ faults =>
    rw [Token.proper_singleton (isEnd_of_first first)]
    exact faults
  | told => exact (List.append_nil _).symm
  | finish _ _ _ _ faults =>
    rw [Token.proper_append, proper_left, faults]
    exact congrArg _ (congrArg _ (List.append_nil _).symm)
  | nothing => exact (List.append_nil _).symm

/-- When the end is told, all that was left has been given before it in the same call. -/
theorem eq_of_isEnd (gives : Gives lexer call tokens after) {earlier later : List Token}
    {token : Token} (split : tokens = earlier ++ token :: later) (told : token.isEnd = true) :
    earlier = lexer.left ∧ token = lexer.ending := by
  cases gives with
  | token _ first =>
    obtain ⟨-, rfl⟩ := singleton_eq_append_cons split
    rw [isEnd_of_first first] at told
    cases told
  | told spent =>
    obtain ⟨rfl, rfl⟩ := singleton_eq_append_cons split
    exact ⟨spent.symm, rfl⟩
  | finish =>
    rcases append_eq_append_cons split with ⟨middle, rfl, ending⟩ | ⟨middle, inside⟩
    · obtain ⟨rfl, rfl⟩ := singleton_eq_append_cons ending
      exact ⟨List.append_nil _, rfl⟩
    · have member : token ∈ lexer.left := inside ▸ List.mem_append_right _ List.mem_cons_self
      rw [isEnd_of_mem_left member] at told
      cases told
  | nothing => cases List.append_eq_nil_iff.mp split.symm |>.2

/-- Behind the end nothing is left. -/
theorem spent (gives : Gives lexer call tokens after) (told : Token.Ended tokens) :
    after.left = [] := by
  cases gives with
  | token _ first =>
    rw [Token.ended_singleton, isEnd_of_first first] at told
    cases told
  | told spent => exact spent
  | finish _ _ spent => exact spent
  | nothing => exact absurd told Token.not_ended_nil

/-- The lexer is finished by the iterator that tells the end, and by nothing else. -/
theorem finished_iff (gives : Gives lexer call tokens after) :
    after.finished = true ↔
      lexer.finished = true ∨ (call ≠ .next ∧ Token.Ended tokens) := by
  cases gives with
  | token _ first _ _ finished =>
    rw [finished, Token.ended_singleton, isEnd_of_first first]
    simp only [Bool.false_eq_true, and_false, or_false]
  | told => simp
  | finish iterates _ _ _ _ finished =>
    have told : Token.Ended (lexer.left ++ [lexer.ending]) :=
      Token.ended_append.mpr (.inr (Token.ended_singleton.mpr rfl))
    exact iff_of_true finished (.inr ⟨iterates, told⟩)
  | nothing _ finished => exact iff_of_true finished (.inl finished)

theorem countP_isEnd_le_one (gives : Gives lexer call tokens after) :
    tokens.countP (·.isEnd) ≤ 1 := by
  cases gives with
  | token => exact List.countP_le_length
  | told => exact List.countP_le_length
  | finish =>
    rw [List.countP_append, Token.countP_isEnd_eq_zero lexer.not_ended_left, Nat.zero_add]
    exact List.countP_le_length
  | nothing => exact Nat.zero_le _

/-- At the end of the line a call that still answers tells the end. -/
theorem eq_ending (gives : Gives lexer call tokens after) (spent : lexer.left = [])
    (answers : call = .next ∨ lexer.finished = false) : tokens = [lexer.ending] := by
  cases gives with
  | token _ first => rw [spent] at first; cases first
  | told => rfl
  | finish => rw [spent]; rfl
  | nothing iterates finished =>
    rw [finished] at answers
    simp [iterates] at answers

theorem ne_nil (gives : Gives lexer call tokens after)
    (answers : call = .next ∨ lexer.finished = false) : tokens ≠ [] := by
  cases gives with
  | token => exact List.cons_ne_nil _ _
  | told => exact List.cons_ne_nil _ _
  | finish => exact List.append_ne_nil_of_right_ne_nil _ (List.cons_ne_nil _ _)
  | nothing iterates finished =>
    rw [finished] at answers
    simp [iterates] at answers

theorem eq_nil (gives : Gives lexer call tokens after) (iterates : call ≠ .next)
    (finished : lexer.finished = true) : tokens = [] := by
  cases gives with
  | token permitted => simp [iterates, finished] at permitted
  | told => exact absurd rfl iterates
  | finish _ unfinished => rw [finished] at unfinished; cases unfinished
  | nothing => rfl

end Gives

/-! ### Rows of calls -/

/-- Calls, and the tokens that each of them gave. -/
abbrev Log := List (Call × List Token)

namespace Log

/-- The tokens given, in order. -/
def given (log : Log) : List Token := log.flatMap (·.2)

/-- The tokens that the iterator gave. -/
def iterated (log : Log) : List Token := given (log.filter (·.1 ≠ .next))

theorem given_concat (log : Log) (call : Call) (tokens : List Token) :
    given (log ++ [(call, tokens)]) = log.given ++ tokens := by
  rw [given, List.flatMap_append, List.flatMap_singleton]
  rfl

theorem iterated_concat (log : Log) (call : Call) (tokens : List Token) :
    iterated (log ++ [(call, tokens)]) = log.iterated ++ if call = .next then [] else tokens := by
  rw [iterated, List.filter_append]
  by_cases direct : call = .next
  · rw [List.filter_cons_of_neg (by simp [direct]), if_pos direct]
    simp [iterated]
  · rw [List.filter_cons_of_pos (by simp [direct]), List.filter_nil, if_neg direct]
    exact given_concat ..

/-- **How a call answers**, after those of a log on a line of the given size. -/
structure Answers (size : Nat) (log : Log) (call : Call) (tokens : List Token) : Prop where
  /-- A call gives something, unless the iterator has told the end. -/
  some : call = .next ∨ ¬ Token.Ended log.iterated → tokens ≠ []
  /-- Once the end is told, it is told again and again directly. -/
  again : call = .next → Token.Ended log.given → tokens = [.endOfFile size]
  /-- The iterator tells it too, even if it has been told directly. -/
  owed : call ≠ .next → Token.Ended log.given → ¬ Token.Ended log.iterated →
    tokens = [.endOfFile size]
  /-- Once the iterator has told the end, it gives nothing. -/
  silent : call ≠ .next → Token.Ended log.iterated → tokens = []

end Log

end Lexer

/-- A lexer, and what has been drawn from it. -/
structure Draws where
  log : Lexer.Log
  lexer : Lexer

namespace Draws

def ofString (text : String) : Draws := ⟨[], .ofString text⟩

/-- Draws once more. -/
def call (draws : Draws) (call : Lexer.Call) : Draws :=
  ⟨draws.log ++ [(call, (draws.lexer.give call).1)], (draws.lexer.give call).2⟩

/-- **The draws are in order**, and so are the faults recorded. -/
structure Orderly (text : String) (draws : Draws) : Prop where
  /-- The tokens given are the first ones of the line, and the faults recorded are theirs: the
  faults of the line are these and those of the tokens to come. -/
  inOrder : ∃ later, (tokenize text).1 = Token.proper draws.log.given ++ later ∧
    draws.lexer.faults.toList = Token.faults (Token.proper draws.log.given) ∧
      (tokenize text).2 = draws.lexer.faults.toList ++ Token.faults later
  /-- When the end is told, it is the end of the line, and all other tokens have been given. -/
  ended : ∀ {earlier later : List Token} {token : Token},
    draws.log.given = earlier ++ token :: later → token.isEnd = true →
      (tokenize text).1 = Token.proper earlier ++ [token]
  /-- The iterator tells the end once. -/
  once : draws.log.iterated.countP (·.isEnd) ≤ 1
  answers : ∀ {earlier later : Lexer.Log} {call : Lexer.Call} {tokens : List Token},
    draws.log = earlier ++ (call, tokens) :: later →
      earlier.Answers text.utf8ByteSize call tokens

/-- **The state of the lexer fits what has been given.** -/
structure Coherent (text : String) (draws : Draws) : Prop where
  whole : Token.scan 0 text.toList = Token.proper draws.log.given ++ draws.lexer.left
  ending : draws.lexer.ending = .endOfFile text.utf8ByteSize
  faults : draws.lexer.faults.toList = Token.faults (Token.proper draws.log.given)
  spent : Token.Ended draws.log.given → draws.lexer.left = []
  finished : draws.lexer.finished = true ↔ Token.Ended draws.log.iterated

/-- A call adds what it gives to the log. -/
theorem exists_gives (draws : Draws) (call : Lexer.Call) :
    ∃ tokens after, draws.lexer.Gives call tokens after ∧
      draws.call call = ⟨draws.log ++ [(call, tokens)], after⟩ :=
  ⟨_, _, draws.lexer.gives_give call, rfl⟩

variable {text : String} {draws : Draws}

theorem coherent_ofString (text : String) : (ofString text).Coherent text where
  whole := rfl
  ending := by
    rw [Text.utf8ByteSize_eq_byteLength]
    exact congrArg _ (Nat.zero_add _)
  faults := rfl
  spent ended := absurd ended Token.not_ended_nil
  finished := iff_of_false Bool.false_ne_true Token.not_ended_nil

/-- **A call keeps the state of the lexer fitting.** -/
theorem Coherent.call (coherent : draws.Coherent text) (call : Lexer.Call) :
    (draws.call call).Coherent text := by
  obtain ⟨tokens, after, gives, extended⟩ := draws.exists_gives call
  rw [extended]
  constructor
  · rw [Lexer.Log.given_concat, Token.proper_append, List.append_assoc, ← gives.left_eq]
    exact coherent.whole
  · exact gives.ending_eq.trans coherent.ending
  · rw [gives.faults_eq, Lexer.Log.given_concat, Token.proper_append, Token.faults_append]
    exact congrArg (· ++ _) coherent.faults
  · rw [Lexer.Log.given_concat, Token.ended_append]
    rintro (before | now)
    · have nothing := gives.left_eq
      rw [coherent.spent before] at nothing
      exact (List.append_eq_nil_iff.mp nothing.symm).2
    · exact gives.spent now
  · rw [gives.finished_iff, Lexer.Log.iterated_concat, Token.ended_append]
    refine or_congr coherent.finished ?_
    by_cases direct : call = .next
    · rw [if_pos direct]
      exact iff_of_false (fun iterates => iterates.1 direct) Token.not_ended_nil
    · rw [if_neg direct, and_iff_right direct]

/-- The tokens of the line, by those given and those left. -/
theorem Coherent.tokenize_eq (coherent : draws.Coherent text) :
    (tokenize text).1 =
      Token.proper draws.log.given ++ (draws.lexer.left ++ [draws.lexer.ending]) := by
  rw [tokenize_eq_scan, coherent.whole, coherent.ending, List.append_assoc]

/-- The next call answers as it has to. -/
theorem Coherent.answers (coherent : draws.Coherent text) {call : Lexer.Call} {tokens : List Token}
    {after : Lexer} (gives : draws.lexer.Gives call tokens after) :
    draws.log.Answers text.utf8ByteSize call tokens := by
  have going : ¬ Token.Ended draws.log.iterated → draws.lexer.finished = false := by
    rw [← coherent.finished, Bool.not_eq_true]
    exact id
  constructor
  · exact fun answers => gives.ne_nil (answers.imp_right going)
  · intro direct ended
    rw [gives.eq_ending (coherent.spent ended) (.inl direct), coherent.ending]
  · intro _ ended owes
    rw [gives.eq_ending (coherent.spent ended) (.inr (going owes)), coherent.ending]
  · exact fun iterates ended => gives.eq_nil iterates (coherent.finished.mpr ended)

/-- The iterator tells the end only if it has not done so yet. -/
theorem Coherent.once (coherent : draws.Coherent text) {call : Lexer.Call} {tokens : List Token}
    {after : Lexer} (once : draws.log.iterated.countP (·.isEnd) ≤ 1)
    (gives : draws.lexer.Gives call tokens after) :
    (Lexer.Log.iterated (draws.log ++ [(call, tokens)])).countP (·.isEnd) ≤ 1 := by
  rw [Lexer.Log.iterated_concat]
  by_cases direct : call = .next
  · rw [if_pos direct, List.append_nil]
    exact once
  · rw [if_neg direct]
    by_cases ended : Token.Ended draws.log.iterated
    · rw [(coherent.answers gives).silent direct ended, List.append_nil]
      exact once
    · rw [List.countP_append, Token.countP_isEnd_eq_zero ended, Nat.zero_add]
      exact gives.countP_isEnd_le_one

/-- The line taken apart where it has been drawn so far. -/
theorem Coherent.inOrder (coherent : draws.Coherent text) :
    ∃ later, (tokenize text).1 = Token.proper draws.log.given ++ later ∧
      draws.lexer.faults.toList = Token.faults (Token.proper draws.log.given) ∧
        (tokenize text).2 = draws.lexer.faults.toList ++ Token.faults later := by
  refine ⟨_, coherent.tokenize_eq, coherent.faults, ?_⟩
  rw [tokenize_eq_scan, coherent.whole, coherent.faults, Token.faults_append, Token.faults_append,
    coherent.ending, Token.faults_endOfFile, List.append_nil]

theorem orderly_ofString (text : String) : (ofString text).Orderly text where
  inOrder := (coherent_ofString text).inOrder
  ended split := by cases (List.append_eq_nil_iff.mp split.symm).2
  once := Nat.zero_le 1
  answers split := by cases (List.append_eq_nil_iff.mp split.symm).2

/-- **A call keeps the draws in order.** -/
theorem Orderly.call (orderly : draws.Orderly text) (coherent : draws.Coherent text)
    (call : Lexer.Call) : (draws.call call).Orderly text := by
  have kept := (coherent.call call).inOrder
  obtain ⟨tokens, after, gives, extended⟩ := draws.exists_gives call
  rw [extended] at kept ⊢
  refine ⟨kept, ?_, ?_, ?_⟩
  · intro earlier later token split told
    rw [Lexer.Log.given_concat] at split
    rcases append_eq_append_cons split with ⟨middle, rfl, now⟩ | ⟨middle, before⟩
    · obtain ⟨rfl, rfl⟩ := gives.eq_of_isEnd now told
      rw [Token.proper_append, Lexer.proper_left, List.append_assoc]
      exact coherent.tokenize_eq
    · exact orderly.ended before told
  · exact coherent.once orderly.once gives
  · intro earlier later call' tokens' split
    rcases append_eq_append_cons split with ⟨middle, rfl, now⟩ | ⟨middle, before⟩
    · obtain ⟨rfl, same⟩ := singleton_eq_append_cons now
      cases same
      rw [List.append_nil]
      exact coherent.answers gives
    · exact orderly.answers before

end Draws

/-- **However the ways of drawing tokens are mixed, the tokens come in order**: after any calls on a
lexer, the tokens given are the first ones of the line, with the faults recorded that they have; the
end is told behind all of them, directly again and again and by the iterator once. -/
theorem orderly_draws (text : String) (calls : List Lexer.Call) :
    (calls.foldl Draws.call (.ofString text)).Orderly text := by
  suffices run : ∀ draws : Draws, draws.Coherent text → draws.Orderly text →
      (calls.foldl Draws.call draws).Orderly text from
    run _ (Draws.coherent_ofString text) (Draws.orderly_ofString text)
  induction calls with
  | nil => exact fun _ _ orderly => orderly
  | cons call calls ih =>
    intro draws coherent orderly
    exact ih (draws.call call) (coherent.call call) (orderly.call coherent call)

-- the end is told directly before the iterator has told it
example : ([.next, .next, .next?, .next?, .next].foldl Draws.call (.ofString "7")).log.map
      (fun entry => entry.2.map (·.kind)) =
    [[.number], [.endOfFile], [.endOfFile], [], [.endOfFile]] := by decide +kernel

end IntCalc
