import MirCi.Semantics.Interaction

/-! Programs that return something, in continuation style: what is to follow one is a program too.
They count the questions that they put to the outside, whose answers are given beforehand. -/
namespace Semantics

/-- Given the questions so far, and what is to follow. -/
def Procedure (ι ε ρ α : Type) := ℕ → (ℕ → α → Interaction ι ε ρ) → Interaction ι ε ρ

variable {ι ε ρ α β : Type}

namespace Procedure

instance : Monad (Procedure ι ε ρ) where
  pure a n next := next n a
  bind x f n next := x n fun n a => f a n next

/-- The number of the next question. -/
def fresh : Procedure ι ε ρ ℕ := fun n next => next (n + 1) n

def fail (e : ε) : Procedure ι ε ρ α := fun _ _ => .fail e

/-- Make a call, and stop with what it raises. -/
def call (i : ι) : Procedure ι ε ρ ρ := fun n next => Interaction.callThen i (next n)

/-- Make a call, and catch what it raises. -/
def outcome (i : ι) : Procedure ι ε ρ (Except ε ρ) := fun n next => .call i (next n)

/-- One after the other. -/
def inOrder : List (Procedure ι ε ρ Unit) → Procedure ι ε ρ Unit
  | [] => pure ()
  | x :: rest => do
      x
      inOrder rest

def run (x : Procedure ι ε ρ α) : Interaction ι ε ρ := x 0 fun _ _ => .done

end Procedure

namespace Interaction

/-- Fail all the same. -/
def failing (e : ε) : Interaction ι ε ρ → Interaction ι ε ρ
  | .done => .fail e
  | .fail _ => .fail e
  | .call i next => .call i fun outcome => (next outcome).failing e

/-- Whether it fails or not, the second program follows the first. -/
def andFinally : Interaction ι ε ρ → Interaction ι ε ρ → Interaction ι ε ρ
  | .done, q => q
  | .fail e, q => q.failing e
  | .call i next, q => .call i fun outcome => (next outcome).andFinally q

end Interaction

/-! ### Rules -/

section Rules

variable {τ Label : Type} {step : τ → Label → Option τ} {admits : τ → Label → Prop}
  {shows : Label → Outcome ι ε ρ} {Post Stop : τ → Prop} {t : τ}

namespace Interaction

theorem covers_failing {p : Interaction ι ε ρ} (e : ε) (h : Covers step admits shows Stop Stop p t) :
    Covers step admits shows Post Stop (p.failing e) t := by
  induction p generalizing t with
  | done => exact h
  | fail _ => exact h
  | call i next ih =>
      intro outcome label u hShows hAdmits hStep
      exact ih outcome (h outcome label u hShows hAdmits hStep)

theorem covers_andFinally {p q : Interaction ι ε ρ} {Middle Broken : τ → Prop}
    (h : Covers step admits shows Middle Broken p t) (hNext : ∀ u, Middle u → Covers step admits shows Post Stop q u)
    (hBroken : ∀ u, Broken u → Covers step admits shows Stop Stop q u) :
    Covers step admits shows Post Stop (p.andFinally q) t := by
  induction p generalizing t with
  | done => exact hNext t h
  | fail e => exact covers_failing e (hBroken t h)
  | call i next ih =>
      intro outcome label u hShows hAdmits hStep
      exact ih outcome (h outcome label u hShows hAdmits hStep)

end Interaction

open Interaction

namespace Procedure

variable (step admits shows Stop) in
/-- From a state of the first kind the procedure gets to one of the second, or stops in one of those where it may. -/
def Leaves (Pre : τ → Prop) (x : Procedure ι ε ρ α) (Then : α → τ → Prop) : Prop :=
  ∀ (Post : τ → Prop) (n : ℕ) (next : ℕ → α → Interaction ι ε ρ) (t : τ), Pre t →
    (∀ m a u, Then a u → Covers step admits shows Post Stop (next m a) u) →
      Covers step admits shows Post Stop (x n next) t

variable {Pre : τ → Prop} {Then : α → τ → Prop} {x : Procedure ι ε ρ α}

theorem leaves_pure {a : α} (h : ∀ t, Pre t → Then a t) : Leaves step admits shows Stop Pre (pure a) Then :=
  fun _ n _ t hPre hNext => hNext n a t (h t hPre)

theorem leaves_bind {Middle : α → τ → Prop} {f : α → Procedure ι ε ρ β} {Last : β → τ → Prop}
    (h : Leaves step admits shows Stop Pre x Middle)
    (hNext : ∀ a, Leaves step admits shows Stop (Middle a) (f a) Last) :
    Leaves step admits shows Stop Pre (x >>= f) Last :=
  fun Post n next t hPre hLast => h Post n _ t hPre fun m a u hMiddle => hNext a Post m next u hMiddle hLast

theorem leaves_fresh : Leaves step admits shows Stop Pre fresh fun _ => Pre :=
  fun _ n _ t hPre hNext => hNext (n + 1) n t hPre

theorem leaves_fail {e : ε} (h : ∀ t, Pre t → Stop t) : Leaves step admits shows Stop Pre (fail e) Then :=
  fun _ _ _ t hPre _ => h t hPre

theorem leaves_inOrder {Inv : τ → Prop} {steps : List (Procedure ι ε ρ Unit)}
    (h : ∀ x ∈ steps, Leaves step admits shows Stop Inv x fun _ => Inv) :
    Leaves step admits shows Stop Inv (inOrder steps) fun _ => Inv := by
  induction steps with
  | nil => exact leaves_pure fun _ hInv => hInv
  | cons x rest ih =>
      refine leaves_bind (h x List.mem_cons_self) fun _ => ih fun y hy => h y (List.mem_cons_of_mem x hy)

theorem Leaves.covers (h : Leaves step admits shows Stop Pre x Then) (hPost : ∀ a u, Then a u → Post u) (hPre : Pre t) :
    Covers step admits shows Post Stop x.run t :=
  h Post 0 _ t hPre fun _ a u hThen => hPost a u hThen

end Procedure

end Rules

end Semantics
