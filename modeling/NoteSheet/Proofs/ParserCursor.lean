import NoteSheet.Proofs.OffendingTokens
import NoteSheet.Proofs.TreeSize

/-!
# The cursor of the parser

The parser returns the tokens that it leaves over, and when it fails it returns none. Here it is
run the way a parser goes that keeps all of its tokens and a place among them: it looks up the
token at the cursor, and takes it by moving the cursor one place on. A run that fails leaves the
cursor where it is, and every lookup is recorded. What the run recurses on is a limit, and not the
tokens that are left: its definition does not rely on the cursor to move.

That every reading is such a run is shown along the ways of a reading (`Reads.leads`). The cursor
never passes the end of the input, so no lookup is made behind it; and a tree that has been read
took as many places as it has nodes and groups, for so many tokens have been read.

Main statement: `Reader.walk_counts_nodes`.
-/

namespace NoteSheet

/-! ## A parser with a cursor -/

/-- A place among some tokens, and the places at which a token has been looked up, the latest
first. -/
structure Cursor where
  position : Nat
  lookups : List Nat := []
deriving DecidableEq, Repr

/-- A run of a parser with a cursor. It may fail, which keeps the cursor, and it may give up. -/
abbrev Walk (α : Type) := ExceptT ParseError (StateT Cursor Option) α

section Parser

variable (tokens : List Token)

namespace Walk

/-- The token at the cursor. Where there is none, the end of an empty input stands for it. -/
def look : Walk Token := do
  let cursor ← get
  set { cursor with lookups := cursor.position :: cursor.lookups }
  return tokens[cursor.position]?.getD (Token.current [])

/-- Takes the token at the cursor; the end of the input is left where it is. -/
def take : Walk Token := do
  let token ← look tokens
  if token.kind ≠ .endOfInput then
    modify fun cursor => { cursor with position := cursor.position + 1 }
  return token

/-- Takes a closing parenthesis. -/
def takeClosing : Walk Token := do
  let token ← look tokens
  if token.kind = .rightParen then take tokens else throw (.unclosed token)

end Walk

open Walk in
/-- What a reader does with the cursor, by at most `limit` calls of readers inside each other. It
gives up on one more. -/
def Reader.walk : (limit : Nat) → Reader → Walk Expr
  | 0, _ => ExceptT.lift failure
  | limit + 1, .whole (.chain level) => do
      let first ← walk limit (.whole level.operand)
      walk limit (.tail level first)
  | limit + 1, .tail level left => do
      let token ← look tokens
      match level.operator? token.kind with
      | none => return left
      | some operator => do
          let _ ← take tokens
          let right ← walk limit (.whole level.operand)
          walk limit (.tail level (.binary operator left right))
  | limit + 1, .whole .unary => do
      let token ← look tokens
      if token.kind = .minus then do
        let _ ← take tokens
        let operand ← walk limit (.whole .unary)
        return .negate operand
      else walk limit (.whole .primary)
  | limit + 1, .whole .primary => do
      let token ← look tokens
      match token.kind with
      | .number => do
          let _ ← take tokens
          return .number (Literal.number token.literal)
      | .absoluteRef => do
          let _ ← take tokens
          match Literal.absolute token.literal with
          | .error fault => throw (.invalidReference fault)
          | .ok id => return .absolute id
      | .relativeRef => do
          let _ ← take tokens
          match Literal.relative token.literal with
          | .error fault => throw (.invalidReference fault)
          | .ok (direction, steps) => return .relative direction steps
      | .leftParen => do
          let _ ← take tokens
          let inner ← walk limit (.whole (.chain .term))
          let _ ← takeClosing tokens
          return .group inner
      | _ => throw (.unexpected token)

end Parser

/-! ## Where a cursor moves -/

/-- Given room enough, a run moves the cursor from one place to another and ends with a result.
It looks up only tokens that there are, and passes none that is the end of the input. -/
structure Moves {α : Type} (tokens : List Token) (run : (limit : Nat) → Walk α) (start : Nat)
    (result : Except ParseError α) (stop : Nat) : Prop where
  start_le : start ≤ stop
  stop_lt : stop < tokens.length
  passed : ∀ i token, start ≤ i → i < stop → tokens[i]? = some token → token.kind ≠ .endOfInput
  ends : ∃ enough lookups, (∀ i ∈ lookups, i < tokens.length) ∧
    ∀ limit, enough ≤ limit → ∀ before,
      (run limit).run.run ⟨start, before⟩ = some (result, ⟨stop, lookups ++ before⟩)

namespace Moves

variable {α β : Type} {tokens : List Token} {run body : Nat → Walk α}
  {next : Nat → α → Walk β} {start mid stop : Nat}

/-- A run that leaves the cursor where it is. -/
theorem stay {result : Except ParseError α} (hPlace : start < tokens.length) :
    Moves tokens (fun _ => ExceptT.mk (Pure.pure result)) start result start where
  start_le := Nat.le_refl start
  stop_lt := hPlace
  passed i token hStart hStop := absurd hStop (Nat.not_lt.mpr hStart)
  ends := ⟨0, [], by simp, fun _ _ _ => rfl⟩

theorem bind {a : α} {result : Except ParseError β} (h : Moves tokens run start (.ok a) mid)
    (hNext : Moves tokens (fun limit => next limit a) mid result stop) :
    Moves tokens (fun limit => run limit >>= next limit) start result stop where
  start_le := Nat.le_trans h.start_le hNext.start_le
  stop_lt := hNext.stop_lt
  passed i token hStart hStop hToken := by
    rcases Nat.lt_or_ge i mid with hMid | hMid
    · exact h.passed i token hStart hMid hToken
    · exact hNext.passed i token hMid hStop hToken
  ends := by
    obtain ⟨enough, lookups, hLookups, hRun⟩ := h.ends
    obtain ⟨enough', lookups', hLookups', hRun'⟩ := hNext.ends
    refine ⟨max enough enough', lookups' ++ lookups, ?_, ?_⟩
    · intro i hMem
      rcases List.mem_append.mp hMem with hMem | hMem
      · exact hLookups' i hMem
      · exact hLookups i hMem
    · intro limit hLimit before
      obtain ⟨hEnough, hEnough'⟩ := Nat.max_le.mp hLimit
      rw [ExceptT.run_bind, StateT.run_bind, hRun limit hEnough, Option.bind_eq_bind,
        Option.bind_some]
      dsimp only
      rw [hRun' limit hEnough', List.append_assoc]

/-- What follows a failure is not run. -/
theorem fault {fault : ParseError} (h : Moves tokens run start (.error fault) stop) :
    Moves tokens (fun limit => run limit >>= next limit) start (.error fault) stop where
  start_le := h.start_le
  stop_lt := h.stop_lt
  passed := h.passed
  ends := by
    obtain ⟨enough, lookups, hLookups, hRun⟩ := h.ends
    refine ⟨enough, lookups, hLookups, fun limit hLimit before => ?_⟩
    rw [ExceptT.run_bind, StateT.run_bind, hRun limit hLimit]
    rfl

/-- A run that calls another with one less room. -/
theorem step {result : Except ParseError α} (h : Moves tokens body start result stop)
    (hCalls : ∀ limit, run (limit + 1) = body limit) : Moves tokens run start result stop where
  start_le := h.start_le
  stop_lt := h.stop_lt
  passed := h.passed
  ends := by
    obtain ⟨enough, lookups, hLookups, hRun⟩ := h.ends
    refine ⟨enough + 1, lookups, hLookups, fun limit hLimit before => ?_⟩
    obtain ⟨limit, rfl⟩ := Nat.exists_eq_add_of_le' (Nat.one_le_of_lt hLimit)
    rw [hCalls]
    exact hRun limit (Nat.le_of_succ_le_succ hLimit) before

/-! ### Tokens looked up and taken -/

section Tokens

variable {ts rest : List Token} {token : Token}

theorem look (hPlace : start < tokens.length) (hDrop : tokens.drop start = ts) :
    Moves tokens (fun _ => Walk.look tokens) start (.ok (Token.current ts)) start := by
  have hToken : tokens[start]?.getD (Token.current []) = Token.current ts := by
    rw [← hDrop, List.drop_eq_getElem_cons hPlace, List.getElem?_eq_getElem hPlace]
    rfl
  refine ⟨Nat.le_refl start, hPlace, ?_, 0, [start], by simpa using hPlace, ?_⟩
  · exact fun i token hStart hStop => absurd hStop (Nat.not_lt.mpr hStart)
  · intro limit _ before
    rw [← hToken]
    rfl

theorem look_cons (hPlace : start < tokens.length) (hDrop : tokens.drop start = token :: rest) :
    Moves tokens (fun _ => Walk.look tokens) start (.ok token) start :=
  look hPlace hDrop

/-- A token that is taken has another behind it, as the last one is the end of the input. -/
theorem take (hEnds : EndsInput tokens) (hPlace : start < tokens.length)
    (hDrop : tokens.drop start = token :: rest) (hKind : token.kind ≠ .endOfInput) :
    Moves tokens (fun _ => Walk.take tokens) start (.ok token) (start + 1) := by
  have hBehind : start + 1 < tokens.length := by
    have hLeft : EndsInput (token :: rest) := hDrop ▸ hEnds.drop hPlace
    obtain ⟨next, more, rfl⟩ := (hLeft.tail hKind).exists_cons
    have hLength := congrArg List.length hDrop
    rw [List.length_drop, List.length_cons, List.length_cons] at hLength
    omega
  refine (look_cons hPlace hDrop).bind ⟨Nat.le_succ start, hBehind, ?_, 0, [], by simp, ?_⟩
  · intro i other hStart hStop hOther
    obtain rfl := Nat.le_antisymm hStart (Nat.le_of_lt_succ hStop)
    rw [← List.head?_drop, hDrop, List.head?_cons, Option.some.injEq] at hOther
    rwa [← hOther]
  · intro limit _ before
    rw [if_pos hKind]
    rfl

theorem takeClosing (hEnds : EndsInput tokens) (hPlace : start < tokens.length)
    (hDrop : tokens.drop start = token :: rest) (hKind : token.kind = .rightParen) :
    Moves tokens (fun _ => Walk.takeClosing tokens) start (.ok token) (start + 1) := by
  refine (look_cons hPlace hDrop).bind ?_
  rw [if_pos hKind]
  exact take hEnds hPlace hDrop (by rw [hKind]; decide)

theorem unclosed (hPlace : start < tokens.length) (hDrop : tokens.drop start = ts)
    (hKind : (Token.current ts).kind ≠ .rightParen) :
    Moves tokens (fun _ => Walk.takeClosing tokens) start
      (.error (.unclosed (Token.current ts))) start := by
  refine (look hPlace hDrop).bind ?_
  rw [if_neg hKind]
  exact stay hPlace

end Tokens

end Moves

/-! ## Every reading -/

theorem drop_succ_of_drop_eq {tokens rest : List Token} {token : Token} {start : Nat}
    (h : tokens.drop start = token :: rest) : tokens.drop (start + 1) = rest := by
  rw [← List.tail_drop, h, List.tail_cons]

/-- Where a run goes that reads: to what the reading leaves over, or to where it gives up. -/
def Leads (tokens : List Token) (run : (limit : Nat) → Walk Expr) (start : Nat) : Reading → Prop
  | .ok (e, rest) => ∃ stop, Moves tokens run start (.ok e) stop ∧ tokens.drop stop = rest
  | .error fault => ∃ stop, Moves tokens run start (.error fault) stop

namespace Leads

variable {α : Type} {tokens : List Token} {start mid : Nat} {result : Reading}

theorem step {run body : Nat → Walk Expr} (h : Leads tokens body start result)
    (hCalls : ∀ limit, run (limit + 1) = body limit) : Leads tokens run start result := by
  match result, h with
  | .ok (e, rest), ⟨stop, hMoves, hRest⟩ => exact ⟨stop, hMoves.step hCalls, hRest⟩
  | .error fault, ⟨stop, hMoves⟩ => exact ⟨stop, hMoves.step hCalls⟩

/-- What is read from where a run ends is read by the run and what follows it. -/
theorem behind {run : Nat → Walk α} {next : Nat → α → Walk Expr} {a : α}
    (hRun : Moves tokens run start (.ok a) mid)
    (h : Leads tokens (fun limit => next limit a) mid result) :
    Leads tokens (fun limit => run limit >>= next limit) start result := by
  match result, h with
  | .ok (e, rest), ⟨stop, hMoves, hRest⟩ => exact ⟨stop, hRun.bind hMoves, hRest⟩
  | .error fault, ⟨stop, hMoves⟩ => exact ⟨stop, hRun.bind hMoves⟩

/-- A run that takes the token it has looked up goes on from the place behind it. -/
theorem taken {run next : Nat → Walk Expr} {body : Nat → Token → Walk Expr} {token : Token}
    {rest : List Token} (hEnds : EndsInput tokens) (hPlace : start < tokens.length)
    (hDrop : tokens.drop start = token :: rest) (hKind : token.kind ≠ .endOfInput)
    (hCalls : ∀ limit, run (limit + 1) = Walk.look tokens >>= body limit)
    (hBody : ∀ limit, body limit token = Walk.take tokens >>= fun _ => next limit)
    (hNext : start + 1 < tokens.length → tokens.drop (start + 1) = rest →
      Leads tokens next (start + 1) result) : Leads tokens run start result := by
  have hTake := Moves.take hEnds hPlace hDrop hKind
  refine .step (.behind (.look_cons hPlace hDrop) ?_) hCalls
  rw [funext hBody]
  exact .behind hTake (hNext hTake.stop_lt (drop_succ_of_drop_eq hDrop))

end Leads

/-- **Every reading is a run** with a cursor, from each place where what it reads is left. -/
theorem Reads.leads {tokens : List Token} (hEnds : EndsInput tokens) {reader : Reader}
    {ts : List Token} {result : Reading} (h : Reads reader ts result) {start : Nat}
    (hPlace : start < tokens.length) (hDrop : tokens.drop start = ts) :
    Leads tokens (fun limit => reader.walk tokens limit) start result := by
  induction h generalizing start with
  | chain _ _ ihFirst ihMore =>
      obtain ⟨mid, hFirst, hMid⟩ := ihFirst hPlace hDrop
      exact (Leads.behind hFirst (ihMore hFirst.stop_lt hMid)).step fun limit => rfl
  | chainFault _ ih =>
      obtain ⟨stop, hFault⟩ := ih hPlace hDrop
      exact ⟨stop, hFault.fault.step fun limit => rfl⟩
  | stop ends =>
      refine Leads.step (.behind (.look hPlace hDrop) ?_) fun limit => rfl
      rw [Level.operator?_eq_none_iff.mpr ends]
      exact ⟨start, .stay hPlace, hDrop⟩
  | more joins _ _ ihOperand ihMore =>
      refine .taken hEnds hPlace hDrop (Level.kind_ne_endOfInput joins) (fun limit => rfl)
        (fun limit => by rw [Level.operator?_eq_some_iff.mpr joins]) fun hPlace hDrop => ?_
      obtain ⟨mid, hOperand, hMid⟩ := ihOperand hPlace hDrop
      exact .behind hOperand (ihMore hOperand.stop_lt hMid)
  | moreFault joins _ ih =>
      refine .taken hEnds hPlace hDrop (Level.kind_ne_endOfInput joins) (fun limit => rfl)
        (fun limit => by rw [Level.operator?_eq_some_iff.mpr joins]) fun hPlace hDrop => ?_
      obtain ⟨stop, hFault⟩ := ih hPlace hDrop
      exact ⟨stop, hFault.fault⟩
  | negate minus _ ih =>
      refine .taken hEnds hPlace hDrop (by rw [minus]; decide) (fun limit => rfl)
        (fun limit => if_pos minus) fun hPlace hDrop => ?_
      obtain ⟨stop, hOperand, hRest⟩ := ih hPlace hDrop
      exact .behind hOperand ⟨stop, .stay hOperand.stop_lt, hRest⟩
  | negateFault minus _ ih =>
      refine .taken hEnds hPlace hDrop (by rw [minus]; decide) (fun limit => rfl)
        (fun limit => if_pos minus) fun hPlace hDrop => ?_
      obtain ⟨stop, hFault⟩ := ih hPlace hDrop
      exact ⟨stop, hFault.fault⟩
  | plain minus _ ih =>
      refine Leads.step (.behind (.look hPlace hDrop) ?_) fun limit => rfl
      simp only [if_neg minus]
      exact ih hPlace hDrop
  | atom atom =>
      cases atom with
      | number kind =>
          refine .taken hEnds hPlace hDrop (by rw [kind]; decide) (fun limit => rfl)
            (fun limit => by rw [kind]) fun hPlace hDrop => ?_
          exact ⟨_, .stay hPlace, hDrop⟩
      | absolute kind names =>
          refine .taken hEnds hPlace hDrop (by rw [kind]; decide) (fun limit => rfl)
            (fun limit => by rw [kind, names]) fun hPlace hDrop => ?_
          exact ⟨_, .stay hPlace, hDrop⟩
      | relative kind names =>
          refine .taken hEnds hPlace hDrop (by rw [kind]; decide) (fun limit => rfl)
            (fun limit => by rw [kind, names]) fun hPlace hDrop => ?_
          exact ⟨_, .stay hPlace, hDrop⟩
  | malformed malformed =>
      rcases malformed with ⟨kind, names⟩ | ⟨kind, names⟩
      all_goals
        refine .taken hEnds hPlace hDrop (by rw [kind]; decide) (fun limit => rfl)
          (fun limit => by rw [kind, names]) fun hPlace hDrop => ?_
        exact ⟨_, .stay hPlace⟩
  | group opens closes _ ih =>
      refine .taken hEnds hPlace hDrop (by rw [opens]; decide) (fun limit => rfl)
        (fun limit => by rw [opens]) fun hPlace hDrop => ?_
      obtain ⟨mid, hInner, hMid⟩ := ih hPlace hDrop
      have hClosing := Moves.takeClosing hEnds hInner.stop_lt hMid closes
      exact .behind hInner
        (.behind hClosing ⟨_, .stay hClosing.stop_lt, drop_succ_of_drop_eq hMid⟩)
  | groupFault opens _ ih =>
      refine .taken hEnds hPlace hDrop (by rw [opens]; decide) (fun limit => rfl)
        (fun limit => by rw [opens]) fun hPlace hDrop => ?_
      obtain ⟨stop, hFault⟩ := ih hPlace hDrop
      exact ⟨stop, hFault.fault⟩
  | unclosed opens closes _ ih =>
      refine .taken hEnds hPlace hDrop (by rw [opens]; decide) (fun limit => rfl)
        (fun limit => by rw [opens]) fun hPlace hDrop => ?_
      obtain ⟨mid, hInner, hMid⟩ := ih hPlace hDrop
      have hUnclosed := Moves.unclosed hInner.stop_lt hMid closes
      exact .behind hInner ⟨mid, hUnclosed.fault⟩
  | @unexpected ts kind =>
      refine Leads.step (.behind (.look hPlace hDrop) ?_) fun limit => rfl
      generalize (Token.current ts).kind = k at kind
      cases k with
      | number | absoluteRef | relativeRef | leftParen => exact absurd kind (by decide)
      | _ => exact ⟨start, .stay hPlace⟩

/-- What has been read takes as many places as the tree has nodes and groups. -/
theorem Reads.places_eq {tokens : List Token} {category : Category} {start stop : Nat} {e : Expr}
    (h : Reads (.whole category) (tokens.drop start) (.ok (e, tokens.drop stop)))
    (hStop : stop < tokens.length) : stop = start + (e.nodes + e.groups) := by
  obtain ⟨front, hSplit, hFront⟩ := h.covers
  have hCount : front.length = e.nodes + e.groups := hFront.length_eq.trans e.tokenCount_eq
  have hLength := congrArg List.length hSplit
  rw [List.length_append, List.length_drop, List.length_drop] at hLength
  omega

/-- **The cursor counts nodes.** From every place among tokens with the end of the input behind
them, a reader with a cursor comes to an end. It makes what the parser makes of the tokens from
that place on, looks up tokens that there are, and passes no end of the input, also where it
fails. When it has read a tree, it has moved by as many places as the tree has nodes and groups.
So a tree that is parsed has at most 1000 nodes and is at most 1000 of them deep, and evaluating
it goes no deeper. -/
theorem Reader.walk_counts_nodes :
    (∀ tokens : List Token, EndsInput tokens → ∀ category : Category, ∀ start < tokens.length,
      ∃ result stop,
        Moves tokens (fun limit => (whole category).walk tokens limit) start result stop ∧
          (whole category).read (tokens.drop start) =
            result.map (fun e => (e, tokens.drop stop)) ∧
          ∀ e, result = .ok e → stop = start + (e.nodes + e.groups)) ∧
    ∀ (text : String) (e : Expr), Expr.parse text = .ok e →
      e.nodes ≤ 1000 ∧ e.depth ≤ 1000 ∧ ∀ absolute relative,
        (e.evaluateWithin absolute relative 1000).run = some (e.evaluate absolute relative) := by
  constructor
  · intro tokens hEnds category start hPlace
    generalize hRead : (whole category).read (tokens.drop start) = result
    have hReads : Reads (.whole category) (tokens.drop start) result := reads_iff.mpr hRead
    have hLeads := hReads.leads hEnds hPlace rfl
    match result with
    | .error fault =>
        obtain ⟨stop, hMoves⟩ := hLeads
        exact ⟨.error fault, stop, hMoves, rfl, nofun⟩
    | .ok (e, rest) =>
        obtain ⟨stop, hMoves, rfl⟩ := hLeads
        refine ⟨.ok e, stop, hMoves, rfl, ?_⟩
        rintro _ ⟨⟩
        exact hReads.places_eq hMoves.stop_lt
  · intro text e hParse
    have hNodes := Expr.nodes_le_of_parse hParse
    have hDepth := Nat.le_trans e.depth_le_nodes hNodes
    exact ⟨hNodes, hDepth, fun absolute relative =>
      e.evaluateWithin_of_depth_le absolute relative hDepth⟩

/-- A difference in parentheses is read from the place of the opening one to behind the closing
one; at the end of the input nothing is read, and the cursor stays. -/
theorem Reader.walk_counts_nodes_grouped :
    let tokens := tokenize "4*(1-$U2)+"
    let inner := Expr.group (.binary .subtract (.number 1) (.relative .up 2))
    let product := Expr.binary .multiply (.number 4) inner
    let run := fun limit => (whole .primary).walk tokens limit
    inner.nodes = 4 ∧ inner.groups = 1 ∧ Moves tokens run 2 (.ok inner) (2 + (4 + 1)) ∧
      Moves tokens run 8 (.error (.unexpected (.endAt 10))) 8 ∧
      Expr.parse "4*(1-$U2)" = .ok product ∧
      ∀ absolute relative, (product.evaluateWithin absolute relative 1000).run =
        some (product.evaluate absolute relative) := by
  intro tokens inner product run
  obtain ⟨hWalks, hBounds⟩ := walk_counts_nodes
  have hEnds : EndsInput tokens := endsInput_tokenize _
  have hLength : tokens.length = 9 := by decide +kernel
  have hParse : Expr.parse "4*(1-$U2)" = .ok product := by decide +kernel
  refine ⟨rfl, rfl, ?_, ?_, hParse, (hBounds _ _ hParse).2.2⟩
  · obtain ⟨result, stop, hMoves, hRead, hPlaces⟩ :=
      hWalks tokens hEnds .primary 2 (by rw [hLength]; decide)
    have hInner : (whole .primary).read (tokens.drop 2) = .ok (inner, tokens.drop 7) := by
      decide +kernel
    obtain ⟨e, rfl, hTree⟩ := exists_of_map_eq_ok (hRead.symm.trans hInner)
    obtain rfl := (Prod.mk.inj hTree).1
    rw [hPlaces _ rfl] at hMoves
    exact hMoves
  · obtain ⟨result, stop, hMoves, hRead, -⟩ :=
      hWalks tokens hEnds .primary 8 (by rw [hLength]; decide)
    have hFault : (whole .primary).read (tokens.drop 8) = .error (.unexpected (.endAt 10)) := by
      decide +kernel
    have hStop : stop = 8 := by
      have hLe := hMoves.start_le
      have hLt := hMoves.stop_lt
      omega
    subst hStop
    rw [hRead] at hFault
    cases result with
    | error fault =>
        obtain rfl := Except.error.inj hFault
        exact hMoves
    | ok e => cases hFault

/-- A formula that breaks off behind its sign is given up at its end. -/
example :
    ((Reader.walk [⟨.minus, "-", 0⟩, .endAt 1] 3 (.whole .unary)).run.run ⟨0, []⟩).map Prod.snd =
      some ⟨1, [1, 1, 0, 0]⟩ := rfl

end NoteSheet
