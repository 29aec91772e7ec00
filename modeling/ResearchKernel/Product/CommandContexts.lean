import ResearchKernel.Decision
import ResearchKernel.Product.Jobs

/-!
# Commands of the product

A registered handler gets the context of a command and either rejects it or accepts it with a
mutation. The kernel applies the mutation in the same transaction, under the identifiers it has
given to the command and to its event. The payload and what the host knows about artifacts are
free-form JSON values; the readers below check them.
-/

namespace ResearchKernel.Product

open Foundation

/-- What a handler gets to see of a command. -/
structure CommandContext where
  runId : Id
  revision : ℤ
  contractVersion : ℤ
  payload : JsonObject
  capability : VerifiedCapability
  snapshot : JsonObject
  evidenceSummary : JsonObject

/-- What the kernel gives to a command that is applied. -/
structure AppliedAs where
  commandId : Id
  eventId : Id
  recordedAt : Stamp

/-! ## Readers -/

def nonemptyText (value : Json) : Option String := do
  let text ← value.text?
  require (!isBlank text)
  return text

/-- A text that is not blank, or nothing. -/
def optionalNonempty (value : Json) : Option (Option String) :=
  if value.isNull then some none else (nonemptyText value).map some

/-- A lowercase SHA-256 digest. -/
def digestText (value : Json) : Option Digest := do
  let text ← nonemptyText value
  require (isDigest text)
  return text

/-- A positive integer; a truth value is none. -/
def positiveInt (value : Json) : Option ℤ := do
  let n ← value.int?
  require (decide (1 ≤ n))
  return n

/-- An integer that is not negative; a truth value is none. -/
def naturalInt (value : Json) : Option ℤ := do
  let n ← value.int?
  require (decide (0 ≤ n))
  return n

/-- Whether an object has all required keys and no others than the optional ones. -/
def hasFields (o : JsonObject) (required optional : List String) : Bool :=
  required.all (o.has ·) &&
    o.all fun member => required.contains member.1 || optional.contains member.1

/-- The role that a capability gives. -/
def CommandContext.hasRole (context : CommandContext) (role : String) : Bool :=
  context.capability.subjectRole == some role

/-- The rejection of a command whose role is another one. -/
def roleRejection (role : String) : Refusal :=
  refuse .capabilityDenied "REQUIRED_ACTION" "/command/type" [("role", .str role)]

/-! ## What is read -/

theorem nonemptyText_eq_some {value : Json} {text : String} :
    nonemptyText value = some text ↔ value = .str text ∧ isBlank text = false := by
  unfold nonemptyText
  simp only [Option.bind_eq_bind, Option.bind_eq_some_iff, Json.text?_eq_some, require_eq_some,
    Bool.not_eq_true', Option.pure_def, Option.some.injEq]
  constructor
  · rintro ⟨read, hread, _, hblank, rfl⟩
    exact ⟨hread, hblank⟩
  · rintro ⟨hread, hblank⟩
    exact ⟨text, hread, (), hblank, rfl⟩

end ResearchKernel.Product
