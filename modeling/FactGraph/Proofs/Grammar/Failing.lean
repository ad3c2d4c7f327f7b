import FactGraph.Proofs.Grammar.Placed
import FactGraph.Proofs.Graph.Refusal
import FactGraph.Proofs.Notation.Reading
import FactGraph.Proofs.Token.Covering
import FactGraph.Proofs.Token.Readable

namespace FactGraph

open Precedence

namespace Token

theorem finished_tokens (source : String) : Finished (Cursor.ofSource source).tokens := by
  rcases (Cursor.tokens_ofSource source).covers with ⟨tokens, last, same, _, ending⟩
  refine ⟨last, by simp [same], ?_⟩
  rintro token rfl
  rcases ending with ⟨_, ends⟩ | ⟨_, _, _, impossible⟩
  · exact Except.ok.inj ends ▸ rfl
  · contradiction

def Unread (source : String) (fault : Fault) : Prop :=
  ∃ before c after, source.toList = before ++ c :: after ∧ ¬ Readable before c after ∧
    (∀ early d late, before = early ++ d :: late → Readable early d (late ++ c :: after)) ∧
    fault = .unreadable (Text.width before) ⟨lineAfter before, columnAfter before⟩
      (String.ofList ((c :: after).take 10))

theorem unread_of_mem_tokens {source : String} {fault : Fault}
    (inside : .error fault ∈ (Cursor.ofSource source).tokens) : Unread source fault := by
  have boundary : Boundary [] source.toList := ⟨by simp, by simp⟩
  rcases (Cursor.tokens_ofSource source).readable boundary with
    ⟨_, tokens, same⟩ | ⟨read, c, after, tokens, split, all, stop, same⟩
  · simp [same] at inside
  · obtain rfl : fault = unreadableAfter read (c :: after) := by simpa [same] using inside
    exact ⟨read, c, after, split, stop, by simpa using (allReadable_iff [] read _).1 all, rfl⟩

end Token

namespace Grammar

variable {limits : Limits} {source : String} {builder : Builder} {inv : Builder → Prop}
  {good : Meaning → Prop} {fine : Token → Prop} {fault : Fault}

/-- Whatever the operations keep may be taken for granted of the fault with which a run over a
source fails. -/
theorem parseFrom_raised (closed : Closed limits.citation inv good fine)
    (tokens : ∀ token, .ok token ∈ (Token.Cursor.ofSource source).tokens → fine token)
    (kept : inv builder) (failed : (Compilation.parseFrom builder limits source).1 = .error fault) :
    Reader.Raised (symbols limits.citation) limits.nesting fine (Token.Unread source)
      (Refusal limits.citation inv good fine) fault := by
  have fed : (Reader.ofSource source builder).Fed inv fine (Token.Unread source) :=
    ⟨⟨kept, by simp [Reader.ofSource], tokens⟩, fun _ inside => Token.unread_of_mem_tokens inside,
      Token.finished_tokens source⟩
  rcases ran : Reader.parse (symbols limits.citation) limits.nesting
    (Reader.ofSource source builder) with
    ⟨answer, reached⟩
  rw [Compilation.parseFrom, ran] at failed
  obtain rfl : answer = .error fault := failed
  exact Reader.parse_raised (Notation.complete limits.citation) closed.symbols_account fed ran

end Grammar

def Fault.OfToken : Fault → Prop
  | .unexpected _ _ _ _ | .pastEnd _ | .mismatch _ _ _ | .redefined _ _ | .undefined
      _ _ | .labelTarget _ _
  | .labelSource _ _ | .statementTaken _ _ => True
  | _ => False

/-- The fault is found at a token, and says where the token stands. -/
structure Fault.Stands (stands : Token.Kind → Span → Prop) (fault : Fault) : Prop where
  found : fault.OfToken
  place : ∃ kind span, stands kind span ∧ fault.position? = some span.position

namespace Grammar

variable {citation : Nat} {stands : Token.Kind → Span → Prop} {token : Token} {fault : Fault}

theorem stands_unexpected {found : Option Meaning} (context : String) (expected : List String)
    (here : stands token.kind token.span) (holds : Each (Meaning.Sited stands) found) :
    (unexpected context expected found token.span).Stands stands := by
  cases found with
  | none => exact ⟨trivial, _, _, here, rfl⟩
  | some meaning =>
    rcases (holds meaning rfl).placed.exists_stands with ⟨kind, there⟩
    exact ⟨trivial, kind, _, there, rfl⟩

theorem stands_of_refused {most : Nat} {graph : Graph} {site : Site}
    (refused : site.Refused most graph fault) {kind : Token.Kind} (here : stands kind site.span) :
    fault = .limit (.citation most) ∨ fault.Stands stands := by
  cases refused with
  | deep => exact .inl rfl
  | taken => exact .inr ⟨trivial, kind, _, here, rfl⟩

theorem Refusal.limit_or_stands
    (refusal : Refusal citation (Builder.Sited stands) (Meaning.Sited stands)
      (fun token => token.Valued ∧ stands token.kind token.span) fault) :
    fault = .limit (.citation citation) ∨ fault.Stands stands := by
  cases refusal with
  | unexpected here _ holds => exact .inr (stands_unexpected _ _ here.2 holds)
  | undefined here | labelTarget here | labelSource here => exact .inr ⟨trivial, _, _, here.2, rfl⟩
  | redefined holds => exact .inr ⟨trivial, _, _, holds.placed, rfl⟩
  | attached here _ described _ failed =>
    rcases Property.exists_refused_of_attachEach failed
      with ⟨site, reached, refused, _, same | ⟨node, inside, same⟩⟩
    · exact stands_of_refused refused (same ▸ here.2)
    · exact stands_of_refused refused (same ▸ described.placed.2 node inside)

end Grammar

namespace Compilation

variable {source : String} {limits : Limits} {fault : Fault}

theorem parseFrom_of_ofSource (failed : ofSource source limits = .error fault) :
    (parseFrom Builder.empty limits source).1 = .error fault := by
  unfold ofSource at failed
  split at failed
  · contradiction
  · next run => exact (congrArg Prod.fst run).trans (congrArg _ (Except.error.inj failed))

/-- A source that does not compile fails for one of its limits, at the first character that cannot
be read, or at one of its tokens. -/
theorem fault_of_ofSource (failed : ofSource source limits = .error fault) :
    fault = .limit (.nesting limits.nesting) ∨ fault = .limit (.citation limits.citation) ∨
      Token.Unread source fault ∨
      fault.OfToken ∧ ∃ token, .ok token ∈ (Token.Cursor.ofSource source).tokens ∧
        fault.position? = some token.span.position := by
  have closed := Grammar.closed_sited limits.citation (Token.Stands source)
  have raised :=
    Grammar.parseFrom_raised closed (Token.stands_of_mem_tokens source) Builder.sited_empty
    (parseFrom_of_ofSource failed)
  have own {fault : Fault} (stands : fault.Stands (Token.Stands source)) : fault.OfToken ∧
      ∃ token, .ok token ∈ (Token.Cursor.ofSource source).tokens ∧
      fault.position? = some token.span.position := by
    rcases stands.place with ⟨_, _, ⟨token, inside, _, rfl⟩, place⟩
    exact ⟨stands.found, token, inside, place⟩
  cases raised with
  | unread pending => exact .inr (.inr (.inl pending))
  | pastEnd here | mismatch _ here | unopened here | unfollowed here =>
    exact .inr (.inr (.inr (own ⟨trivial, _, _, here.2, rfl⟩)))
  | limit => exact .inl rfl
  | refused owned =>
    rcases owned.limit_or_stands with deep | stands
    · exact .inr (.inl deep)
    · exact .inr (.inr (.inr (own stands)))

theorem fault_of_ofSource_second_line :
    let fault : Fault := .undefined "y" ⟨2, 1⟩
    ofSource "@x := a\n*y => b:c" .standard = .error fault ∧
      (fault = .limit (.nesting Limits.standard.nesting) ∨
        fault = .limit (.citation Limits.standard.citation) ∨
        Token.Unread "@x := a\n*y => b:c" fault ∨
        fault.OfToken ∧ ∃ token, .ok token ∈ (Token.Cursor.ofSource "@x := a\n*y => b:c").tokens ∧
          fault.position? = some token.span.position) :=
  ⟨by decide +kernel, fault_of_ofSource (by decide +kernel)⟩

end Compilation

end FactGraph
