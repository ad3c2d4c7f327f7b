import FactGraph.Graph.Naming
import FactGraph.Proofs.Layout

namespace FactGraph

open Token

def specialChars : List Char := [anonymousMarker, '@', '*']

def PlainText (text : List Char) : Prop := ∀ c ∈ text, c ∉ specialChars

instance (text : List Char) : Decidable (PlainText text) :=
  List.decidableBAll _ text

theorem plainText_append {first second : List Char} :
    PlainText (first ++ second) ↔ PlainText first ∧ PlainText second :=
  List.forall_mem_append

structure Token.Plain (token : Token) : Prop where
  target : token.kind ≠ .target
  reference : token.kind ≠ .reference
  named : token.kind = .identifier → ∃ text, token.value = some text ∧ hasMarker text.toList = false

theorem Token.Plain.of_outline {token other : Token} (plain : other.Plain)
    (same : other.outline = token.outline) :
    token.Plain := by
  rw [Token.outline, Token.outline, Prod.mk.injEq] at same
  rcases plain with ⟨target, reference, named⟩
  rw [same.1] at target reference named
  rw [same.2] at named
  exact ⟨target, reference, named⟩

namespace Notation

theorem hasMarker_of_plainText {text : List Char} (plain : PlainText text) :
    hasMarker text = false := by
  rw [hasMarker, ← Bool.not_eq_true, List.contains_iff_mem]
  exact fun inside => plain _ inside List.mem_cons_self

theorem Fits.plain {sign : Sign} {rest : List Char} (fits : Fits sign rest)
    (plain : PlainText sign.text) (mark : Mark) :
    (sign.token mark).Plain := by
  cases fits with
  | target | reference => exact absurd (by decide) (plain _ List.mem_cons_self)
  | identifier name =>
    refine ⟨nofun, nofun, fun _ => ⟨String.ofList name.text, rfl, ?_⟩⟩
    rw [String.toList_ofList]
    exact hasMarker_of_plainText plain
  | operator listed =>
    have operators : ∀ entry ∈ operatorSigns, entry.1 ≠ .target ∧
        entry.1 ≠ .reference ∧ entry.1 ≠ .identifier := by decide
    rcases operators _ listed with ⟨target, reference, named⟩
    exact ⟨target, reference, fun kind => absurd kind named⟩
  | leftParen | rightParen | pause => exact ⟨nofun, nofun, nofun⟩

end Notation

theorem Token.Scanned.plain {before rest : List Char} {outcomes : List (Except Fault Token)}
    (scanned : Scanned before rest outcomes) (plain : PlainText rest) (token : Token)
    (inside : .ok token ∈ outcomes) :
    token.Plain := by
  induction scanned with
  | ended =>
    obtain rfl := Except.ok.inj (List.mem_singleton.1 inside)
    exact ⟨nofun, nofun, nofun⟩
  | stopped => cases List.mem_singleton.1 inside
  | @read before rest kind lexeme _ found _ ih =>
    rcases Pattern.append_of_first? found with ⟨whole, _⟩
    rw [← whole, plainText_append] at plain
    rcases List.mem_cons.1 inside with here | later
    · obtain rfl := Except.ok.inj here
      have spelled : Notation.Sign.Spelled ⟨kind, lexeme.text, lexeme.value⟩ lexeme.rest := by
        rwa [Notation.Sign.Spelled, whole]
      exact spelled.fits.plain plain.1 (Mark.start.past before)
    · exact ih plain.2 later

end FactGraph
