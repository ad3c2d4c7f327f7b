import FactGraph.Compilation

/-! Readings that are driven step by step. A failed step leaves the reading where it stopped, and
later steps go on from there with the whole depth of nesting. -/

namespace FactGraph

open Precedence

structure Session (σ ν : Type) where
  symbols : Symbols σ ν
  nesting : Nat
  reader : Reader σ

namespace Session

variable {σ ν α : Type}

def startFrom (builder : Builder) (limits : Limits) (source : String) : Session Builder Meaning :=
  ⟨Grammar.symbols limits.citation, limits.nesting, Reader.ofSource source builder⟩

def ofSource (source : String) (limits : Limits) : Session Builder Meaning :=
  startFrom Builder.empty limits source

def onReader (step : Session σ ν → Attempt (Reader σ) α) : Attempt (Session σ ν) α := fun session =>
  let (answer, reader) := step session session.reader
  (answer, { session with reader })

def advance (expected : Option Token.Kind) : Attempt (Session σ ν) Token :=
  onReader fun session => Reader.advance session.symbols expected

def expression (power : Nat) : Attempt (Session σ ν) (Option ν) :=
  onReader fun session => Reader.expression session.symbols session.nesting power

def parse : Attempt (Session σ ν) (List ν) :=
  onReader fun session => Reader.parse session.symbols session.nesting

/-- Raises the power of a kind of token, and gives the power it then has. -/
def raise (kind : Token.Kind) (power : Nat) (session : Session σ ν) : Nat × Session σ ν :=
  let symbols := session.symbols.add kind power
  (symbols.power kind, { session with symbols })

end Session

end FactGraph
