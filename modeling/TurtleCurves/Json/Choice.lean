import TurtleCurves.Json.Decode

/-!
# Choices

A choice between names is written as the bare name, or, if the name carries a payload, as an object
whose only member is the name with its payload.  A list of `Variant`s describes the alternatives in
the order in which messages list them.
-/

namespace TurtleCurves.Json

/-- One alternative of a choice. -/
inductive Variant (τ : Type)
  /-- A bare name. -/
  | plain (name : String) (value : τ)
  /-- A name with a payload. -/
  | carrying (name : String) (read : Decoder τ)

/-- The name of an alternative. -/
def Variant.name {τ : Type} : Variant τ → String
  | plain name _ | carrying name _ => name

/-- The alternative with a name. -/
def variant {τ : Type} (variants : List (Variant τ)) (name : String) :
    Except Problem (Variant τ) :=
  match variants.find? fun v => v.name == name with
  | some v => .ok v
  | none => mismatch (.unknownVariant name (variants.map Variant.name))

/-- Reads the payload of an alternative; that of a bare name is `null`. -/
def Variant.readPayload {τ : Type} : Variant τ → Decoder τ
  | plain _ value, .null => .ok value
  | plain _ _, r => wrongType .unit r
  | carrying _ read, r => read r

/-- Reads a choice: a bare name, or an object whose only member is a name with its payload. -/
def decodeChoice {τ : Type} (variants : List (Variant τ)) : Decoder τ
  | .text name => do
      match ← variant variants name with
      | .plain _ value => .ok value
      | .carrying _ _ => mismatch (.wrongType .unitVariant .payload)
  | .object ((some name, payload) :: rest) closed => do
      let chosen ← variant variants name
      let value ← chosen.readPayload payload
      if rest.isEmpty && closed then .ok value else .error .malformed
  | _ => .error .malformed

/-- A name with its payload as JSON. -/
def carrying (name : String) (payload : Json) : Json :=
  .object [(name, payload)]

end TurtleCurves.Json
