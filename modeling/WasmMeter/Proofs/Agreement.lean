import WasmMeter.Proofs.Reading.Contents
import WasmMeter.Proofs.Traversal

/-!
Computations that agree although their inputs stood at other offsets. Answers are related as the
inputs were, and a failure is the same failure up to the offset that it names. Agreement is carried
along a sequence of computations and through lists, so it only has to be shown of the steps.
-/
namespace WasmMeter

/-- The same error, without the place where it was found. -/
def Error.clearOffset : Error → Error
  | .malformedSection id _ flaw => .malformedSection id 0 flaw
  | .unexpectedEnd _ wanted => .unexpectedEnd 0 wanted
  | .invalidLeb128 _ => .invalidLeb128 0
  | .unknownOpcode byte sub _ => .unknownOpcode byte sub 0
  | .invalidImmediate _ flaw => .invalidImmediate 0 flaw
  | .unmatchedBlockEnd _ => .unmatchedBlockEnd 0
  | .truncatedBody _ => .truncatedBody 0
  | .trailingCode _ => .trailingCode 0
  | error => error

@[simp] theorem Error.clearOffset_move (distance : Nat) (e : Error) :
    (e.move distance).clearOffset = e.clearOffset := by
  cases e <;> rfl

variable {α β γ δ : Type} {R : α → β → Prop} {S : γ → δ → Prop}

/-- Both answer, and the answers are related, or both fail with the same error up to its offset. -/
inductive Agree (R : α → β → Prop) : Except Error α → Except Error β → Prop where
  | ok {a : α} {b : β} (related : R a b) : Agree R (.ok a) (.ok b)
  | error {e e' : Error} (same : e'.clearOffset = e.clearOffset) : Agree R (.error e) (.error e')

namespace Agree

variable {x : Except Error α} {y : Except Error β}

/-- What is related to itself in every answer agrees with itself. -/
theorem refl {R : α → α → Prop} (h : ∀ a, R a a) (x : Except Error α) : Agree R x x := by
  cases x with
  | ok a => exact .ok (h a)
  | error e => exact .error rfl

theorem mono {R' : α → β → Prop} (h : Agree R x y) (hmono : ∀ a b, R a b → R' a b) :
    Agree R' x y := by
  cases h with
  | ok related => exact .ok (hmono _ _ related)
  | error same => exact .error same

/-- Related answers are carried on, and an error on one side stays the error of both. -/
theorem bind {f : α → Except Error γ} {g : β → Except Error δ} (h : Agree R x y)
    (hstep : ∀ a b, R a b → Agree S (f a) (g b)) : Agree S (x >>= f) (y >>= g) := by
  cases h with
  | ok related => exact hstep _ _ related
  | error same => exact .error same

/-- Related entries of two lists are gone through alike. -/
theorem mapM {f : α → Except Error γ} {g : β → Except Error δ} {entries : List α}
    {others : List β} (h : List.Forall₂ R entries others)
    (hstep : ∀ a b, R a b → Agree S (f a) (g b)) :
    Agree (List.Forall₂ S) (entries.mapM f) (others.mapM g) := by
  induction h with
  | nil => exact .ok .nil
  | cons hab _ ih =>
      rw [List.mapM_cons, List.mapM_cons]
      exact (hstep _ _ hab).bind fun c d hcd => ih.bind fun rest rest' hrest =>
        .ok (.cons hcd hrest)

end Agree

/-- The offset of code shows in the offsets of errors only. -/
theorem Disassembly.agree_ofBytesAt (base place : Nat) (code : List UInt8) :
    Agree (· = ·) (ofBytesAt base code) (ofBytesAt place code) := by
  have hstart (base : Nat) : ofBytesAt base code = (ofBytes code).mapError (Error.move base) := by
    have h := ofBytesAt_add 0 base code
    rwa [Nat.zero_add] at h
  rw [hstart base, hstart place]
  cases ofBytes code with
  | ok d => exact .ok rfl
  | error e => exact .error (by rw [Error.clearOffset_move, Error.clearOffset_move])

end WasmMeter
