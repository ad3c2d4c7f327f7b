import FactGraph.Proofs.Grammar.Growing
import FactGraph.Proofs.Precedence.Depth
import FactGraph.Session

namespace FactGraph.Precedence

variable {σ ν : Type}

namespace Symbols

variable {symbols : Symbols σ ν} (kind : Token.Kind) (power : Nat)

theorem opening?_add (other : Token.Kind) :
    (symbols.add kind power).opening? other = symbols.opening? other := by
  unfold opening? add alter
  split
  · next same =>
    subst same
    cases symbols other <;> rfl
  · rfl

theorem following?_add (other : Token.Kind) :
    (symbols.add kind power).following? other = symbols.following? other := by
  unfold following? add alter
  split
  · next same =>
    subst same
    cases symbols other <;> rfl
  · rfl

theorem Grow.add {inv : σ → Prop} {ahead : σ → σ → Prop} {good : ν → Prop} {fine : Token → Prop}
    (grow : symbols.Grow inv ahead good fine) :
    (symbols.add kind power).Grow inv ahead good fine where
  refl := grow.refl
  trans := grow.trans
  keep start := by
    constructor
    · intro token rule here found
      rw [opening?_add] at found
      exact (grow.keep start).opening token rule here found
    · intro token rule left here found
      rw [following?_add] at found
      exact (grow.keep start).following token rule left here found

theorem counted_add : (symbols.add kind power).counted = symbols.counted.add kind power := by
  funext other
  simp only [counted, add, alter]
  split
  · cases symbols kind <;> rfl
  · rfl

end Symbols

end FactGraph.Precedence

namespace FactGraph.Session

open Precedence

variable {σ ν : Type}

inductive Request where
  | advance (expected : Option Token.Kind)
  | expression (power : Nat)
  | parse
  | raise (kind : Token.Kind) (power : Nat)

inductive Answer (ν : Type) where
  | token (token : Token)
  | meaning (meaning : Option ν)
  | meanings (meanings : List ν)
  | power (power : Nat)

namespace Request

def perform : Request → Attempt (Session σ ν) (Answer ν)
  | advance expected => .token <$> Session.advance expected
  | expression power => .meaning <$> Session.expression power
  | parse => .meanings <$> Session.parse
  | raise kind power => .power <$> Attempt.change (Session.raise kind power)

def performCounting : Request → Attempt (Session (σ × Nat) ν) (Answer ν)
  | advance expected => .token <$> Session.advance expected
  | expression power => .meaning <$> onReader fun session =>
      Reader.expressionCounting session.symbols session.nesting session.nesting power
  | parse =>
    .meanings <$> onReader fun session => Reader.parseCounting session.symbols session.nesting
  | raise kind power => .power <$> Attempt.change (Session.raise kind power)

end Request

/-- The session after some requests, each performed whether or not those before it have failed. -/
def after (perform : Request → Attempt (Session σ ν) (Answer ν)) :
    List Request → Session σ ν → Session σ ν
  | [], session => session
  | request :: rest, session => after perform rest (perform request session).2

def counted (session : Session σ ν) : Session (σ × Nat) ν :=
  ⟨session.symbols.counted, session.nesting, session.reader.counted 0⟩

section Growth

variable {inv : σ → Prop} {ahead : σ → σ → Prop} {good : ν → Prop} {fine : Token → Prop}

structure Growing (inv : σ → Prop) (ahead : σ → σ → Prop) (good : ν → Prop) (fine : Token → Prop)
    (session : Session σ ν) : Prop where
  symbols : session.symbols.Grow inv ahead good fine
  reader : Reader.Sound inv fine session.reader

theorem Growing.onReader {α : Type} {ends : α → Prop} {session : Session σ ν}
    {step : Session σ ν → Attempt (Reader σ) α} (growing : session.Growing inv ahead good fine)
    (keeps : Attempt.Keeps (Reader.Sound (fun state => inv state ∧
      ahead session.reader.state state) fine)
      (step session) ends) :
    ahead session.reader.state (Session.onReader step session).2.reader.state ∧
      (Session.onReader step session).2.Growing inv ahead good fine := by
  rcases Reader.grows_of_keeps (growing.symbols.refl _) keeps growing.reader with ⟨along, sound, _⟩
  exact ⟨along, growing.symbols, sound⟩

theorem Growing.perform {session : Session σ ν} (growing : session.Growing inv ahead good fine)
    (request : Request) :
    ahead session.reader.state (request.perform session).2.reader.state ∧
      (request.perform session).2.Growing inv ahead good fine := by
  have keep := growing.symbols.keep session.reader.state
  cases request with
  | advance expected =>
    rw [Request.perform, map_eq_pure_bind, Attempt.snd_bind_pure]
    exact growing.onReader (Reader.advance_keeps session.symbols expected)
  | expression power =>
    rw [Request.perform, map_eq_pure_bind, Attempt.snd_bind_pure]
    exact growing.onReader (Reader.expressionWithin_keeps keep session.nesting
      session.nesting power)
  | parse =>
    rw [Request.perform, map_eq_pure_bind, Attempt.snd_bind_pure]
    exact growing.onReader (Reader.parse_keeps keep session.nesting)
  | raise kind power =>
    exact ⟨growing.symbols.refl _, growing.symbols.add kind power, growing.reader⟩

theorem Growing.after {session : Session σ ν} (growing : session.Growing inv ahead good fine)
    (requests : List Request) :
    (after Request.perform requests session).Growing inv ahead good fine := by
  induction requests generalizing session with
  | nil => exact growing
  | cons request rest ih => exact ih (growing.perform request).2

end Growth

/-- The step has the same answer without a count as with one, and the count is at none again. -/
def Counted {α : Type} (step : Attempt (Session σ ν) α)
    (counting : Attempt (Session (σ × Nat) ν) α) : Prop :=
  ∀ session : Session σ ν, counting session.counted = ((step session).1, (step session).2.counted)

theorem Counted.onReader {α : Type} {step : Session σ ν → Attempt (Reader σ) α}
    {counting : Session (σ × Nat) ν → Attempt (Reader (σ × Nat)) α}
    (counts : ∀ session, Reader.Counts 0 (step session) (counting session.counted)) :
    Counted (Session.onReader step) (Session.onReader counting) := by
  intro session
  have same : counting session.counted session.counted.reader = _ := counts session session.reader
  unfold Session.onReader
  rw [same]
  rfl

theorem Counted.map {α β : Type} {step : Attempt (Session σ ν) α}
    {counting : Attempt (Session (σ × Nat) ν) α} (counted : Counted step counting)
    (answer : α → β) : Counted (answer <$> step) (answer <$> counting) := by
  intro session
  have same := counted session
  rw [map_eq_pure_bind, map_eq_pure_bind]
  rcases run : step session with ⟨fault | value, reached⟩
  · rw [run] at same
    rw [Attempt.bind_error run, Attempt.bind_error same]
  · rw [run] at same
    rw [Attempt.bind_ok run, Attempt.bind_ok same]
    rfl

theorem Request.perform_counted (request : Request) :
    Counted (σ := σ) (ν := ν) request.perform request.performCounting := by
  cases request with
  | advance expected => exact (Counted.onReader fun _ => Reader.advance_counts expected).map _
  | expression power =>
    apply Counted.map
    apply Counted.onReader
    intro session
    exact Reader.expressionCounting_counts (Nat.le_add_left session.nesting 0) power
  | parse => exact (Counted.onReader fun _ => Reader.parseCounting_counts).map _
  | raise kind power =>
    apply Counted.map
    intro session
    simp only [Attempt.change, Session.raise, counted, ← Symbols.counted_add, Symbols.power_counted]

theorem after_counted (requests : List Request) (session : Session σ ν) :
    after Request.performCounting requests session.counted =
      (after Request.perform requests session).counted := by
  induction requests generalizing session with
  | nil => rfl
  | cons request rest ih => rw [after, after, request.perform_counted, ih]

theorem growing_startFrom {builder : Builder} (sound : builder.Sound) (limits : Limits)
    (source : String) :
    (startFrom builder limits source).Growing Builder.Sound Builder.Extends Meaning.Named
      Token.Valued where
  symbols := Grammar.symbols_grow limits.citation
  reader := sound.ofSource source

/-- A source with its limits, and what is asked of a session over it. -/
structure Script where
  source : String
  limits : Limits
  requests : List Request

namespace Script

def run (script : Script) (builder : Builder) : Session Builder Meaning :=
  after Request.perform script.requests (startFrom builder script.limits script.source)

def runCounting (script : Script) (builder : Builder) : Session (Builder × Nat) Meaning :=
  after Request.performCounting script.requests
    (startFrom builder script.limits script.source).counted

/-- What sessions build one after the other, each from where the one before it was left. -/
def build : List Script → Builder → Builder
  | [], builder => builder
  | script :: rest, builder => build rest (script.run builder).reader.state

theorem growing_run (script : Script) {builder : Builder} (sound : builder.Sound) :
    (script.run builder).Growing Builder.Sound Builder.Extends Meaning.Named Token.Valued :=
  (growing_startFrom sound script.limits script.source).after script.requests

theorem sound_build (scripts : List Script) {builder : Builder} (sound : builder.Sound) :
    (build scripts builder).Sound := by
  induction scripts generalizing builder with
  | nil => exact sound
  | cons script rest ih => exact ih (script.growing_run sound).reader.state

theorem runCounting_eq (script : Script) (builder : Builder) :
    script.runCounting builder = (script.run builder).counted :=
  after_counted script.requests _

end Script

/-- A session may begin with whatever other sessions have built one after the other. Whatever has
been asked of it, and whatever is asked next, nothing that has been built is lost; and in between no
expression is open, so that a reader that counts them gives the same answers. -/
theorem perform_extends (earlier : List Script) (script : Script) (request : Request) :
    let start := Script.build earlier Builder.empty
    let session := script.run start
    let counting := script.runCounting start
    session.reader.state.Extends (request.perform session).2.reader.state ∧
      counting.reader = session.reader.counted 0 ∧
      (request.performCounting counting).1 = (request.perform session).1 := by
  intro start session counting
  have sound : start.Sound := Script.sound_build earlier Builder.sound_empty
  have counted : counting = session.counted := script.runCounting_eq start
  refine ⟨((script.growing_run sound).perform request).1, ?_, ?_⟩
  · rw [counted]
    rfl
  · rw [counted, request.perform_counted]

end FactGraph.Session
