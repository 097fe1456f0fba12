import Mathlib.Data.List.ReduceOption
import NoteSheet.Proofs.Tokenization

/-!
# Calls of a lexer

A lexer is asked for its next token directly, or as an iteration, which gives the end of the
input once and then nothing. Both kinds of calls move one place in the text, but only the
iteration notes down that it has come to the end. So calls of the two kinds may be mixed: each
takes the next token, whatever kinds of calls took those before it (`answer_of_piece`), and
behind the last token only the iteration remembers, and only its own calls (`answers_of_spent`).

Main statement: `answers_interleave`.
-/

namespace NoteSheet.Lexer

/-- A way to ask a lexer for a token. -/
inductive Call where
  /-- For the next token, or the end of the input. -/
  | nextToken
  /-- For the next token of the iteration. -/
  | next
deriving DecidableEq, Repr

/-- The answer to a call, and the lexer after it. -/
def answer (lexer : Lexer) : Call → Option Token × Lexer
  | .nextToken => (some lexer.nextToken.1, lexer.nextToken.2)
  | .next => lexer.next?

/-- The answers to some calls, one after the other. -/
def answers : Lexer → List Call → List (Option Token)
  | _, [] => []
  | lexer, call :: calls => (lexer.answer call).1 :: (lexer.answer call).2.answers calls

/-! ## Calls that take a token -/

/-- **Step**: a call of either kind gives the piece after the spacing and goes on behind it. -/
theorem answer_of_piece {start : Nat} {gap after : List Char} {token : Token}
    (hSpacing : ∀ c ∈ gap, isSpacing c = true) (hOffset : token.offset = start + byteLength gap)
    (hCut : IsPiece token.kind token.span.toList after) (call : Call) :
    (reading start (gap ++ token.span.toList ++ after)).answer call =
      (some token, reading token.stop after) := by
  have hNext := nextToken_of_piece hSpacing hOffset hCut
  cases call with
  | nextToken =>
      unfold answer
      rw [hNext]
  | next =>
      unfold answer next?
      rw [if_neg (by simp), hNext]
      simp [hCut.kind_ne_endOfInput]

/-! ## Calls behind the last token -/

/-- A lexer behind the last token of a text that ends at some byte. The flag says whether the
iteration has given the end of the input. -/
structure Spent (lexer : Lexer) (stop : Nat) (finished : Bool) : Prop where
  spacing : ∀ c ∈ lexer.rest, isSpacing c = true
  stop_eq : lexer.offset + byteLength lexer.rest = stop
  finished_eq : lexer.finished = finished

namespace Spent

variable {lexer : Lexer} {stop : Nat} {finished : Bool}

theorem nextToken_eq (h : lexer.Spent stop finished) :
    lexer.nextToken = (.endAt stop, { rest := [], offset := stop, finished := finished }) := by
  have hTake : lexer.rest.takeWhile isSpacing = lexer.rest :=
    List.takeWhile_eq_self_iff.mpr h.spacing
  have hDrop : lexer.rest.dropWhile isSpacing = [] := List.dropWhile_eq_nil_iff.mpr h.spacing
  unfold nextToken
  rw [hDrop, hTake, h.stop_eq, h.finished_eq]
  rfl

/-- A direct call gives the end of the input, and the iteration is where it was. -/
theorem nextToken (h : lexer.Spent stop finished) :
    (lexer.answer .nextToken).1 = some (.endAt stop) ∧
      (lexer.answer .nextToken).2.Spent stop finished := by
  unfold answer
  rw [h.nextToken_eq]
  exact ⟨rfl, by simp, rfl, rfl⟩

/-- The iteration gives the end of the input once. -/
theorem next (h : lexer.Spent stop finished) :
    (lexer.answer .next).1 = (if finished then none else some (.endAt stop)) ∧
      (lexer.answer .next).2.Spent stop true := by
  unfold answer next?
  rw [h.finished_eq]
  cases finished with
  | true => exact ⟨rfl, h⟩
  | false =>
      rw [if_neg (by simp), h.nextToken_eq]
      exact ⟨rfl, by simp, rfl, rfl⟩

end Spent

/-- **Run behind the last token**: every call gives the end of the input, but for those of an
iteration that has given it before. -/
theorem answers_of_spent {lexer : Lexer} {stop : Nat} {finished : Bool}
    (h : lexer.Spent stop finished) (calls : List Call) :
    lexer.answers calls = calls.mapIdx fun i call =>
      if call = .nextToken ∨ finished = false ∧ .next ∉ calls.take i then some (.endAt stop)
      else none := by
  induction calls generalizing lexer finished with
  | nil => rfl
  | cons call calls ih =>
      rw [List.mapIdx_cons]
      cases call with
      | nextToken =>
          obtain ⟨hAnswer, hAfter⟩ := h.nextToken
          unfold answers
          rw [hAnswer, ih hAfter]
          simp
      | next =>
          obtain ⟨hAnswer, hAfter⟩ := h.next
          unfold answers
          rw [hAnswer, ih hAfter]
          cases finished <;> simp

/-! ## Any calls -/

/-- **Run**: the calls take the tokens one by one, and those behind the last token are answered
as at the end of the input. -/
theorem answers_of_cuts {start : Nat} {cs : List Char} {tokens : List Token}
    (h : Cuts start cs tokens) (calls : List Call) :
    (reading start cs).answers calls = (tokens.take calls.length).map some ++
      (calls.drop tokens.length).mapIdx fun i call =>
        if call = .nextToken ∨ .next ∉ (calls.drop tokens.length).take i then
          some (.endAt (start + byteLength cs))
        else none := by
  induction h generalizing calls with
  | @done start gap spacing =>
      have hSpent : (reading start gap).Spent (start + byteLength gap) false := ⟨spacing, rfl, rfl⟩
      rw [answers_of_spent hSpent]
      simp
  | @piece start gap after token tokens spacing offset cut more ih =>
      cases calls with
      | nil => rfl
      | cons call calls =>
          unfold answers
          rw [answer_of_piece spacing offset cut, ih, byteLength_cut offset]
          rfl

/-- **Mixed calls lose and repeat nothing.** Whatever kinds of calls are made of a lexer, as many
as there are tokens take the tokens of the text in order. Every direct call after those gives the
end of the input behind the last byte. Of the calls of the iteration after those, the first gives
it too and all others give nothing. -/
theorem answers_interleave (text : String) (calls : List Call) :
    ∃ tokens, tokenize text = tokens ++ [.endAt text.utf8ByteSize] ∧
      (ofText text).answers calls = (tokens.take calls.length).map some ++
        (calls.drop tokens.length).mapIdx (fun i call =>
          if call = .nextToken ∨ .next ∉ (calls.drop tokens.length).take i then
            some (.endAt text.utf8ByteSize)
          else none) ∧
      ((ofText text).answers calls).reduceOption.filter (fun token => token.kind ≠ .endOfInput) =
        tokens.take calls.length := by
  have hAnswers : (ofText text).answers calls = _ := answers_of_cuts (cuts_pieces text) calls
  rw [byteLength_toList, Nat.zero_add] at hAnswers
  refine ⟨pieces text, tokenize_eq text, hAnswers, ?_⟩
  have hTaken : ∀ token ∈ (pieces text).take calls.length, token.kind ≠ .endOfInput := by
    intro token hMem
    obtain ⟨_, _, _, _, hCut⟩ := (cuts_pieces text).placed (List.mem_of_mem_take hMem)
    exact hCut.kind_ne_endOfInput
  have hLate : ∀ token, some token ∈ (calls.drop (pieces text).length).mapIdx (fun i call =>
      if call = .nextToken ∨ .next ∉ (calls.drop (pieces text).length).take i then
        some (Token.endAt text.utf8ByteSize)
      else none) → token.kind = .endOfInput := by
    intro token hMem
    obtain ⟨i, _, hToken⟩ := List.mem_mapIdx.mp hMem
    obtain ⟨_, hToken⟩ | ⟨_, hToken⟩ := ite_eq_iff.mp hToken
    · exact Option.some.inj hToken ▸ rfl
    · cases hToken
  have hSome : (((pieces text).take calls.length).map some).reduceOption =
      (pieces text).take calls.length := by
    rw [List.reduceOption, List.filterMap_map]
    exact List.filterMap_some
  rw [hAnswers, List.reduceOption_append, List.filter_append, hSome,
    List.filter_eq_self.mpr (by simpa using hTaken), List.filter_eq_nil_iff.mpr, List.append_nil]
  intro token hMem
  simp [hLate token (List.reduceOption_mem_iff.mp hMem)]

end NoteSheet.Lexer
