import TurtleCurves.Symbol

/-!
# Log records and logged computations

What a computation has to say beside its answer is data: a list of `LogRecord`s in the order in
which they arise.  A `Logged ε β` is an outcome, a failure in `ε` or a value in `β`, together with
the records written on the way.  A failure stops the computation and keeps what was written before
it, so the records of a sequence are those of its parts up to and including the part that fails.
-/

namespace TurtleCurves

/-- The three severities in use. -/
inductive LogLevel
  | warn
  | info
  | debug
deriving DecidableEq, Repr

/-- The name of a level in a log line. -/
def LogLevel.name : LogLevel → String
  | .warn => "WARN"
  | .info => "INFO"
  | .debug => "DEBUG"

/-- One thing worth reporting. -/
inductive LogRecord
  /-- A head is listed again with the body that it already has. -/
  | repeatedRule (head : Symbol)
  /-- Generations are about to be built: how many are asked for and the projected symbol count. -/
  | projection (generations : Nat) (symbols : Nat)
  /-- A generation has been built; its size is in bytes of UTF-8. -/
  | generation (index : Nat) (bytes : Nat)
  /-- No symbol of the previous generation has a production. -/
  | exhausted (index : Nat)
  /-- A word has been drawn. -/
  | rendered (symbols : Nat) (segments : Nat) (primitives : Nat)
deriving DecidableEq, Repr

namespace LogRecord

/-- A repeated rule is a warning, a finished drawing is information, the rest is for debugging. -/
def level : LogRecord → LogLevel
  | repeatedRule _ => .warn
  | rendered _ _ _ => .info
  | projection _ _ | generation _ _ | exhausted _ => .debug

/-- The text of a record. -/
def text : LogRecord → String
  | repeatedRule head => s!"rule for '{head}' is listed twice with the same body"
  | projection generations symbols =>
      s!"expanding {generations} generations, projected {symbols} symbols"
  | generation index bytes => s!"generation {index}: {bytes} bytes"
  | exhausted index => s!"generation {index}: no productions left, stopping"
  | rendered symbols segments primitives =>
      s!"rendered {symbols} symbols into {segments} segments ({primitives} primitives)"

end LogRecord

/-- An outcome and the records written on the way to it. -/
structure Logged (ε β : Type) where
  /-- The failure or the value reached. -/
  outcome : Except ε β
  /-- What was written, oldest first. -/
  records : List LogRecord

namespace Logged

variable {ε ε₁ β γ : Type}

/-- An outcome that writes nothing. -/
def ofExcept (outcome : Except ε β) : Logged ε β :=
  ⟨outcome, []⟩

/-- A failure that writes nothing. -/
def fail (e : ε) : Logged ε β :=
  ⟨.error e, []⟩

/-- Writes one record. -/
def write (record : LogRecord) : Logged ε Unit :=
  ⟨.ok (), [record]⟩

/-- Goes on with `f` after a success; a failure is final and keeps its records. -/
def andThen (x : Logged ε β) (f : β → Logged ε γ) : Logged ε γ :=
  match x.outcome with
  | .ok b => ⟨(f b).outcome, x.records ++ (f b).records⟩
  | .error e => ⟨.error e, x.records⟩

instance : Monad (Logged ε) where
  pure b := ⟨.ok b, []⟩
  bind := andThen

/-- Restates the failure and leaves value and records as they are. -/
def mapError (f : ε → ε₁) (x : Logged ε β) : Logged ε₁ β :=
  ⟨x.outcome.mapError f, x.records⟩

@[simp] theorem outcome_pure (b : β) : (pure b : Logged ε β).outcome = .ok b := rfl

@[simp] theorem records_pure (b : β) : (pure b : Logged ε β).records = [] := rfl

@[simp] theorem ofExcept_outcome (o : Except ε β) : (ofExcept o).outcome = o := rfl

@[simp] theorem ofExcept_records (o : Except ε β) : (ofExcept o).records = [] := rfl

/-- The outcome of a sequence is the outcome of its parts in sequence. -/
theorem outcome_bind (x : Logged ε β) (f : β → Logged ε γ) :
    (x >>= f).outcome = x.outcome >>= fun b => (f b).outcome := by
  change (x.andThen f).outcome = _
  unfold andThen
  cases x.outcome <;> rfl

/-- A sequence whose first part succeeds is the second part with the records of the first in front.
-/
theorem bind_of_ok {x : Logged ε β} {b : β} (f : β → Logged ε γ) (h : x.outcome = .ok b) :
    x >>= f = ⟨(f b).outcome, x.records ++ (f b).records⟩ := by
  change x.andThen f = _
  simp [andThen, h]

/-- A sequence whose first part fails goes no further. -/
theorem bind_of_error {x : Logged ε β} {e : ε} (f : β → Logged ε γ) (h : x.outcome = .error e) :
    x >>= f = ⟨.error e, x.records⟩ := by
  change x.andThen f = _
  simp [andThen, h]

/-- Restating the failures of a sequence is restating those of its parts. -/
theorem mapError_bind (restate : ε → ε₁) (x : Logged ε β) (f : β → Logged ε γ) :
    (x >>= f).mapError restate = x.mapError restate >>= fun b => (f b).mapError restate := by
  cases x with
  | mk outcome records => cases outcome <;> rfl

/-- Computations that are the same but for the wording of their failures succeed in the same way. -/
theorem eq_of_mapError_eq {restate : ε → ε₁} {x y : Logged ε β} {b : β}
    (h : x.mapError restate = y.mapError restate) (hx : x.outcome = .ok b) : y = x := by
  cases x with
  | mk outcome records =>
    cases y with
    | mk outcome' records' =>
      cases hx
      cases outcome' with
      | ok b' => cases h; rfl
      | error e => cases h

/-- Computations that are the same but for the wording of their failures fail together. -/
theorem exists_error_of_mapError_eq {restate : ε → ε₁} {x y : Logged ε β} {e : ε}
    (h : x.mapError restate = y.mapError restate) (hx : x.outcome = .error e) :
    ∃ e', y.outcome = .error e' ∧ restate e' = restate e := by
  have houtcome : x.outcome.mapError restate = y.outcome.mapError restate :=
    congrArg Logged.outcome h
  rw [hx] at houtcome
  cases hy : y.outcome with
  | ok b => rw [hy] at houtcome; cases houtcome
  | error e' =>
    rw [hy] at houtcome
    exact ⟨e', rfl, (Except.error.inj houtcome).symm⟩

end Logged

end TurtleCurves
