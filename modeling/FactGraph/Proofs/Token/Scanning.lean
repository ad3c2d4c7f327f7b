import FactGraph.Proofs.Token.Readable
import FactGraph.Proofs.Token.Covering

namespace FactGraph.Token

namespace Cursor

variable {cursor : Cursor} {token : Token} {last : Except Fault Token}
  {more : List (Except Fault Token)}

theorem tokens_eq_singleton_or_cons (cursor : Cursor) :
    (∃ last, cursor.tokens = [last] ∧ cursor.token = last.map (·, cursor)) ∨
      ∃ first after, cursor.tokens = .ok first :: after.tokens ∧
      cursor.token = .ok (first, after) := by
  by_cases ended : cursor.rest = []
  · exact .inl ⟨_, tokens_of_rest_nil ended, token_of_rest_nil ended⟩
  · rcases next : cursor.token with fault | ⟨first, after⟩
    · exact .inl ⟨_, tokens_of_fault ended next, rfl⟩
    · exact .inr ⟨first, after, tokens_of_token ended next, rfl⟩

theorem tokens_ne_nil (cursor : Cursor) : cursor.tokens ≠ [] := by
  rcases cursor.tokens_eq_singleton_or_cons with ⟨last, single, -⟩ | ⟨first, after, more, -⟩
  · simp [single]
  · simp [more]

theorem exists_of_tokens_cons (ahead : cursor.tokens = .ok token :: more) (further : more ≠ []) :
    ∃ after, cursor.token = .ok (token, after) ∧ after.tokens = more := by
  rcases cursor.tokens_eq_singleton_or_cons with ⟨last, single, -⟩ | ⟨first, after, some, read⟩
  · rw [single] at ahead
    exact absurd (List.cons.inj ahead).2.symm further
  · rw [some] at ahead
    rcases List.cons.inj ahead with ⟨same, rest⟩
    obtain rfl := Except.ok.inj same
    exact ⟨after, read, rest⟩

theorem token_of_tokens_singleton (ahead : cursor.tokens = [last]) :
    cursor.token = last.map (·, cursor) := by
  rcases cursor.tokens_eq_singleton_or_cons with ⟨other, single, read⟩ | ⟨first, after, more, -⟩
  · rw [single] at ahead
    rw [read, (List.cons.inj ahead).1]
  · rw [more] at ahead
    exact absurd (List.cons.inj ahead).2 after.tokens_ne_nil

end Cursor

namespace Scanner

variable {scanner : Scanner} {token : Token} {tokens : List Token} {last : Except Fault Token}
  {more : List (Except Fault Token)}

theorem nextToken_of_more (ahead : scanner.cursor.tokens = .ok token :: more)
    (further : more ≠ []) :
    ∃ after : Cursor, nextToken scanner = (.ok token, ⟨after, scanner.finished⟩) ∧
    after.tokens = more := by
  rcases Cursor.exists_of_tokens_cons ahead further with ⟨after, read, rest⟩
  exact ⟨after, by rw [nextToken, read], rest⟩

theorem nextToken_of_last (ahead : scanner.cursor.tokens = [last]) :
    nextToken scanner = (last, scanner) := by
  have read := Cursor.token_of_tokens_singleton ahead
  cases last with
  | ok token =>
    rw [nextToken, read]
    rfl
  | error fault =>
    rw [nextToken, read]
    rfl

theorem next_of_finished (finished : scanner.finished = true) :
    next scanner = (.ok none, scanner) := by
  rw [next, if_pos finished]

theorem next_of_more (going : scanner.finished = false)
    (ahead : scanner.cursor.tokens = .ok token :: more) (further : more ≠ [])
    (inner : token.kind ≠ .endOfInput) :
    ∃ after : Cursor, next scanner = (.ok (some token), ⟨after, false⟩) ∧ after.tokens = more := by
  rcases nextToken_of_more ahead further with ⟨after, read, rest⟩
  refine ⟨after, ?_, rest⟩
  rw [next, if_neg (by simp [going]), read]
  simp [inner]

theorem next_of_last (going : scanner.finished = false) (ahead : scanner.cursor.tokens = [last])
    (ending : ∀ token, last = .ok token → token.kind = .endOfInput) :
    next scanner = (last.map some, { scanner with finished := true }) := by
  have read := nextToken_of_last ahead
  rw [next, if_neg (by simp [going]), read]
  cases last with
  | ok token => simp [ending token rfl, Except.map]
  | error fault => rfl

inductive Call where
  /-- A step of a walk. -/
  | next
  | nextToken
  deriving DecidableEq, Repr

abbrev Answer := Except Fault (Option Token)

def Call.perform : Call → Attempt Scanner (Option Token)
  | next => Scanner.next
  | nextToken => some <$> Scanner.nextToken

/-- Some calls with their answers, each made whatever was answered to those before it. -/
def transcript : List Call → Scanner → List (Call × Answer)
  | [], _ => []
  | call :: calls, scanner =>
    (call, (call.perform scanner).1) :: transcript calls (call.perform scanner).2

theorem map_fst_transcript (calls : List Call) (scanner : Scanner) :
    (transcript calls scanner).map Prod.fst = calls := by
  induction calls generalizing scanner with
  | nil => rfl
  | cons call calls ih => rw [transcript, List.map_cons, ih]

theorem perform_nextToken (scanner : Scanner) :
    Call.perform .nextToken scanner = ((nextToken scanner).1.map some, (nextToken scanner).2) := by
  rw [Call.perform, map_eq_pure_bind, Attempt.bind_apply]
  rcases nextToken scanner with ⟨_ | _, _⟩ <;> rfl

theorem perform_of_more (call : Call) (going : scanner.finished = false)
    (ahead : scanner.cursor.tokens = .ok token :: more) (further : more ≠ [])
    (inner : token.kind ≠ .endOfInput) :
    ∃ after : Cursor, call.perform scanner = (.ok (some token), ⟨after, false⟩) ∧
    after.tokens = more := by
  cases call with
  | next => exact next_of_more going ahead further inner
  | nextToken =>
    rcases nextToken_of_more ahead further with ⟨after, read, rest⟩
    refine ⟨after, ?_, rest⟩
    rw [perform_nextToken, read, going]
    rfl

/-- What a call is answered after others: the next token while there is one; then what ends the
tokens, but a walk meets that only once. -/
def due (tokens : List Token) (last : Except Fault Token) (past : List (Call × Answer))
    (call : Call) : Answer :=
  match tokens[past.length]? with
  | some token => .ok (some token)
  | none => if call = .next ∧ (.next, last.map some) ∈ past then .ok none else last.map some

theorem due_of_lt {past : List (Call × Answer)} (within : past.length < tokens.length)
    (call : Call) :
    due tokens last past call = .ok (some tokens[past.length]) := by
  rw [due, List.getElem?_eq_getElem within]

theorem due_of_le {past : List (Call × Answer)} (behind : tokens.length ≤ past.length)
    (call : Call) :
    due tokens last past call =
      if call = .next ∧ (.next, last.map some) ∈ past then .ok none else last.map some := by
  rw [due, List.getElem?_eq_none behind]

structure Reached (tokens : List Token) (last : Except Fault Token) (past : List (Call × Answer))
    (scanner : Scanner) :
    Prop where
  ahead : scanner.cursor.tokens = (tokens.drop past.length).map .ok ++ [last]
  going : past.length ≤ tokens.length → scanner.finished = false
  finished : scanner.finished = true ↔ (.next, last.map some) ∈ past

namespace Reached

variable {past : List (Call × Answer)}

theorem start (ahead : scanner.cursor.tokens = tokens.map .ok ++ [last])
    (going : scanner.finished = false) :
    Reached tokens last [] scanner where
  ahead := ahead
  going _ := going
  finished := by simp [going]

theorem pass (reached : Reached tokens last past scanner) (within : past.length < tokens.length)
    {after : Cursor} (rest : after.tokens = (tokens.drop (past.length + 1)).map .ok ++ [last])
    (other : last ≠ .ok tokens[past.length]) (call : Call) :
    Reached tokens last (past ++ [(call, .ok (some tokens[past.length]))]) ⟨after, false⟩ where
  ahead := by rw [rest, List.length_append, List.length_singleton]
  going _ := rfl
  finished := by
    have before : (Call.next, last.map some) ∉ past := by
      simp [← reached.finished, reached.going (Nat.le_of_lt within)]
    constructor
    · intro impossible
      contradiction
    · intro told
      rcases List.mem_append.1 told with earlier | now
      · exact absurd earlier before
      · have same := (Prod.mk.inj (List.mem_singleton.1 now)).2
        cases last with
        | ok token => exact absurd (congrArg Except.ok (Option.some.inj (Except.ok.inj same))) other
        | error fault => contradiction

theorem stay (reached : Reached tokens last past scanner)
    (behind : tokens.length ≤ past.length) {call : Call} {answer : Answer} {finished : Bool}
    (ended : finished = true ↔ scanner.finished = true ∨ (call, answer) = (.next, last.map some)) :
    Reached tokens last (past ++ [(call, answer)]) { scanner with finished } where
  ahead := by
    have none : tokens.drop (past ++ [(call, answer)]).length = [] :=
      List.drop_eq_nil_of_le (by simp; omega)
    have before : tokens.drop past.length = [] := List.drop_eq_nil_of_le behind
    rw [none, reached.ahead, before]
  going within := by
    simp only [List.length_append, List.length_singleton] at within
    omega
  finished := by
    rw [ended, reached.finished, List.mem_append, List.mem_singleton, eq_comm (a := (call, answer))]

theorem perform (inner : ∀ token ∈ tokens, token.kind ≠ .endOfInput)
    (ending : ∀ token, last = .ok token → token.kind = .endOfInput)
    (reached : Reached tokens last past scanner) (call : Call) :
    ∃ scanner', call.perform scanner = (due tokens last past call, scanner') ∧
      Reached tokens last (past ++ [(call, due tokens last past call)]) scanner' := by
  by_cases within : past.length < tokens.length
  · have inside : tokens[past.length].kind ≠ .endOfInput := inner _ (List.getElem_mem within)
    have ahead := reached.ahead
    rw [List.drop_eq_getElem_cons within, List.map_cons, List.cons_append] at ahead
    rcases perform_of_more call (reached.going (Nat.le_of_lt within)) ahead (by simp) inside
      with ⟨after, answered, rest⟩
    have other : last ≠ .ok tokens[past.length] := fun same => inside (ending _ same)
    rw [due_of_lt within]
    exact ⟨_, answered, reached.pass within rest other call⟩
  · have behind : tokens.length ≤ past.length := Nat.not_lt.1 within
    have ahead : scanner.cursor.tokens = [last] := by
      rw [reached.ahead, List.drop_eq_nil_of_le behind]
      rfl
    rw [due_of_le behind]
    -- The cursor stays where it is from here on, and only the end of the walk may change.
    cases call with
    | nextToken =>
      have answered : Call.perform .nextToken scanner = (last.map some, scanner) := by
        rw [perform_nextToken, nextToken_of_last ahead]
      simp only [reduceCtorEq, false_and, if_false]
      exact ⟨scanner, answered, reached.stay behind (by simp)⟩
    | next =>
      cases finished : scanner.finished with
      | true =>
        have met := reached.finished.1 finished
        have answered : Call.perform .next scanner = (.ok none, scanner) :=
          next_of_finished finished
        rw [if_pos ⟨rfl, met⟩]
        exact ⟨scanner, answered, reached.stay behind (by simp [finished])⟩
      | false =>
        have unmet : (Call.next, last.map some) ∉ past := by simp [← reached.finished, finished]
        have answered : Call.perform .next scanner =
            (last.map some, { scanner with finished := true }) :=
          next_of_last finished ahead ending
        rw [if_neg (by simp [unmet])]
        exact ⟨_, answered, reached.stay behind (by simp)⟩

theorem answer_eq (inner : ∀ token ∈ tokens, token.kind ≠ .endOfInput)
    (ending : ∀ token, last = .ok token → token.kind = .endOfInput) {calls : List Call}
    (reached : Reached tokens last past scanner) {early late : List (Call × Answer)} {call : Call}
    {answer : Answer} (split : transcript calls scanner = early ++ (call, answer) :: late) :
    answer = due tokens last (past ++ early) call := by
  induction calls generalizing past scanner early with
  | nil => simp [transcript] at split
  | cons first calls ih =>
    rcases reached.perform inner ending first with ⟨after, answered, next⟩
    rw [transcript, answered] at split
    rcases List.cons_eq_append_iff.1 split with ⟨rfl, same⟩ | ⟨others, rfl, same⟩
    · rcases Prod.mk.inj (List.cons.inj same).1 with ⟨rfl, rfl⟩
      rw [List.append_nil]
    · rw [ih next same, List.append_assoc, List.singleton_append]

end Reached

theorem transcript_of_finished (count : Nat) (finished : scanner.finished = true) :
    (transcript (List.replicate count .next) scanner).map Prod.snd =
      List.replicate count (.ok none) := by
  induction count with
  | zero => rfl
  | succ count ih =>
    have answered : Call.perform .next scanner = (.ok none, scanner) := next_of_finished finished
    rw [List.replicate_succ, transcript, answered, List.map_cons, ih, List.replicate_succ]

theorem transcript_of_walk {count bound : Nat} (enough : count ≤ bound)
    (going : scanner.finished = false) (ahead : scanner.cursor.tokens = tokens.map .ok ++ [last])
    (inner : ∀ token ∈ tokens, token.kind ≠ .endOfInput)
    (ending : ∀ token, last = .ok token → token.kind = .endOfInput) :
    (transcript (List.replicate count .next) scanner).map Prod.snd =
      ((tokens.map fun token => Except.ok (some token)) ++
        last.map some :: List.replicate bound (.ok none)).take count := by
  induction count generalizing tokens scanner with
  | zero => rfl
  | succ count ih =>
    cases tokens with
    | nil =>
      have answered : Call.perform .next scanner =
          (last.map some, { scanner with finished := true }) :=
        next_of_last going ahead ending
      have short : min count bound = count := by omega
      rw [List.replicate_succ, transcript, answered, List.map_cons,
        transcript_of_finished count rfl]
      simp [List.take_replicate, short]
    | cons token tokens =>
      rcases List.forall_mem_cons.1 inner with ⟨here, others⟩
      rcases perform_of_more .next going ahead (by simp) here with ⟨after, answered, rest⟩
      rw [List.replicate_succ, transcript, answered, List.map_cons, ih (by omega) rfl rest others]
      rfl

theorem exists_tokens_last (source : String) :
    ∃ tokens last, (Cursor.ofSource source).tokens = tokens.map .ok ++ [last] ∧
      (∀ token ∈ tokens, token.kind ≠ .endOfInput) ∧
      ((∃ span, last = .ok (endOfInput span) ∧
        tokenize source = .ok (tokens ++ [endOfInput span])) ∨
        ∃ fault, last = .error fault ∧ tokenize source = .error fault) := by
  rcases tokens_cover_source source with ⟨tokens, last, ahead, placed, ending⟩
  refine ⟨tokens, last, ahead, ?_, ?_⟩
  · intro token inside
    rcases List.append_of_mem inside with ⟨early, late, split⟩
    exact (placed early token late split).1
  · rcases ending with ⟨-, rfl⟩ | ⟨rest, -, -, rfl⟩
    · refine .inl ⟨_, rfl, ?_⟩
      have all : (Cursor.ofSource source).tokens =
          (tokens ++ [endOfInput (spanAfter source.toList [])]).map .ok := by
        rw [ahead, List.map_append]
        rfl
      rw [tokenize, all, mapM_id_ok]
    · exact .inr ⟨_, rfl, by rw [tokenize, ahead, mapM_id_error]⟩

/-- However a scanner is asked, the calls are answered with the tokens of the source in order, each
once. Behind them stands the end of the source or its fault: it is given to every call that is no
step of the walk, and to the first step that comes to it, and further steps are answered with
nothing. A walk by itself meets it once. -/
theorem calls_share_tokens (source : String) :
    ∃ tokens last, (Cursor.ofSource source).tokens = tokens.map .ok ++ [last] ∧
      (∀ token ∈ tokens, token.kind ≠ .endOfInput) ∧
      ((∃ span, last = .ok (endOfInput span) ∧
        tokenize source = .ok (tokens ++ [endOfInput span])) ∨
        ∃ fault, last = .error fault ∧ tokenize source = .error fault) ∧
      (∀ calls, (transcript calls (ofSource source)).map Prod.fst = calls ∧
        ∀ early call answer late, transcript calls (ofSource source) =
          early ++ (call, answer) :: late →
          (∀ token, tokens[early.length]? = some token → answer = .ok (some token)) ∧
          (tokens.length ≤ early.length →
            answer = if call = .next ∧ (.next, last.map some) ∈ early then .ok none
            else last.map some)) ∧
      ∀ count, (transcript (List.replicate count .next) (ofSource source)).map Prod.snd =
        ((tokens.map fun token => Except.ok (some token)) ++
          last.map some :: List.replicate count (.ok none)).take count := by
  rcases exists_tokens_last source with ⟨tokens, last, ahead, inner, either⟩
  have ending : ∀ token, last = .ok token → token.kind = .endOfInput := by
    intro token same
    rcases either with ⟨span, here, -⟩ | ⟨fault, here, -⟩
    · rw [Except.ok.inj (same.symm.trans here)]
      rfl
    · rw [here] at same
      contradiction
  refine ⟨tokens, last, ahead, inner, either, ?_, ?_⟩
  · intro calls
    refine ⟨map_fst_transcript calls _, ?_⟩
    intro early call answer late split
    have start : Reached tokens last [] (ofSource source) := .start ahead rfl
    have answered : answer = due tokens last early call := start.answer_eq inner ending split
    constructor
    · intro token here
      rw [answered, due, here]
    · intro behind
      rw [answered, due_of_le behind]
  · intro count
    exact transcript_of_walk (Nat.le_refl count) rfl ahead inner ending

/-- A fault behind the first token: a call beside the walk comes to it first, then the walk, which
ends with it. -/
theorem calls_share_tokens_fault :
    let told := transcript [.next, .nextToken, .next, .next] (ofSource "a#")
    ∃ (first : Token) (last : Except Fault Token), (Cursor.ofSource "a#").tokens =
        [.ok first, last] ∧
      told = told.take 3 ++ [(.next, .ok none)] ∧ (.next, last.map some) ∈ told.take 3 ∧
      (transcript (List.replicate 3 .next) (ofSource "a#")).map Prod.snd =
        [.ok (some first), last.map some, .ok none] := by
  intro told
  rcases calls_share_tokens "a#" with ⟨tokens, last, ahead, -, -, each, walk⟩
  have two : (Cursor.ofSource "a#").tokens.length = 2 := by decide +kernel
  have one : tokens.length = 1 := by simpa [ahead] using two
  have split : told = told.take 3 ++ [(.next, .ok none)] := by decide +kernel
  have three : (told.take 3).length = 3 := by decide +kernel
  have law := ((each _).2 _ _ _ _ split).2 (by omega)
  have met : (.next, last.map some) ∈ told.take 3 := by
    by_contra unmet
    rw [if_neg (by simp [unmet])] at law
    cases last with
    | ok token => simp [Except.map] at law
    | error fault => contradiction
  rcases List.length_eq_one_iff.1 one with ⟨first, rfl⟩
  exact ⟨first, last, ahead, split, met, walk 3⟩

end Scanner

end FactGraph.Token
