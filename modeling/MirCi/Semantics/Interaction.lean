import MirCi.Semantics.Contract
import MirCi.Semantics.Run

/-! Programs that make calls and choose what to do next by what comes of them. What a call raises
is an outcome like what it returns, so a program may catch it or stop with it. -/
namespace Semantics

open Effect

inductive Interaction (ι ε ρ : Type) where
  | done
  | fail (e : ε)
  | call (i : ι) (next : Except ε ρ → Interaction ι ε ρ)

/-- A call and what came of it. -/
abbrev Outcome (ι ε ρ : Type) := ι × Except ε ρ

/-- The state that the calls work on, and the calls so far. -/
structure Logged (ι ε ρ σ : Type) where
  state : σ
  log : List (Outcome ι ε ρ) := []

namespace Interaction

variable {ι ε ρ σ τ Label : Type}

/-- Make a call. The handler is told how many there were before it. -/
def attempt (handle : ℕ → ι → EStateM ε σ ρ) (i : ι) : EStateM ε (Logged ι ε ρ σ) (Except ε ρ) := fun w =>
  match (handle w.log.length i).run w.state with
  | .ok a s => .ok (.ok a) ⟨s, w.log ++ [(i, .ok a)]⟩
  | .error e s => .ok (.error e) ⟨s, w.log ++ [(i, .error e)]⟩

def exec (handle : ℕ → ι → EStateM ε σ ρ) : Interaction ι ε ρ → EStateM ε (Logged ι ε ρ σ) Unit
  | .done => pure ()
  | .fail e => throw e
  | .call i next => do
      let outcome ← attempt handle i
      (next outcome).exec handle

/-- Go on only if the call returns. -/
def callThen (i : ι) (next : ρ → Interaction ι ε ρ) : Interaction ι ε ρ :=
  .call i fun
    | .ok a => next a
    | .error e => .fail e

/-- The calls that lead through a program to what is left of it. -/
inductive Leads : Interaction ι ε ρ → List (Outcome ι ε ρ) → Interaction ι ε ρ → Prop where
  | here (p : Interaction ι ε ρ) : Leads p [] p
  | call {i : ι} {next : Except ε ρ → Interaction ι ε ρ} {outcome : Except ε ρ} {rest : List (Outcome ι ε ρ)}
      {q : Interaction ι ε ρ} (h : Leads (next outcome) rest q) : Leads (.call i next) ((i, outcome) :: rest) q

variable {handle : ℕ → ι → EStateM ε σ ρ}

/-- What holds after a call, of its outcome, the state and the log. -/
theorem triple_attempt {Pre : Logged ι ε ρ σ → Prop} {Post : Except ε ρ → Logged ι ε ρ σ → Prop}
    {Stop : Logged ι ε ρ σ → Prop} {i : ι}
    (h : ∀ w, Pre w → Contract (· = w.state) (handle w.log.length i)
      (fun a s => Post (.ok a) ⟨s, w.log ++ [(i, .ok a)]⟩) fun e s => Post (.error e) ⟨s, w.log ++ [(i, .error e)]⟩) :
    Triple Pre (attempt handle i) Post Stop := by
  intro w hPre
  have hEnd := h w hPre w.state rfl
  rw [EStateM.run, attempt]
  cases hRun : (handle w.log.length i).run w.state with
  | ok a s =>
      rw [hRun] at hEnd
      exact hEnd
  | error e s =>
      rw [hRun] at hEnd
      exact hEnd

/-- The log of a program's run leads through it, and to its end. -/
theorem triple_exec_leads (handle : ℕ → ι → EStateM ε σ ρ) (p : Interaction ι ε ρ) (log : List (Outcome ι ε ρ)) :
    Triple (fun w : Logged ι ε ρ σ => w.log = log) (p.exec handle)
      (fun _ w => ∃ calls, w.log = log ++ calls ∧ Leads p calls .done)
      fun w => ∃ calls e, w.log = log ++ calls ∧ Leads p calls (.fail e) := by
  induction p generalizing log with
  | done => exact triple_pure () fun w h => ⟨[], by simpa using h, .here _⟩
  | fail e => exact triple_throw e fun w h => ⟨[], e, by simpa using h, .here _⟩
  | call i next ih =>
      have hCall : Triple (fun w : Logged ι ε ρ σ => w.log = log) (attempt handle i)
          (fun outcome w => w.log = log ++ [(i, outcome)])
          fun w => ∃ calls e, w.log = log ++ calls ∧ Leads (.call i next) calls (.fail e) := by
        refine triple_attempt fun w h s _ => ?_
        rw [h]
        cases (handle log.length i).run s <;> rfl
      refine triple_bind hCall fun outcome => (ih outcome (log ++ [(i, outcome)])).mono (fun _ w h => ?_) fun w h => ?_
      · obtain ⟨calls, hLog, hLeads⟩ := h
        exact ⟨(i, outcome) :: calls, by simpa using hLog, .call hLeads⟩
      · obtain ⟨calls, e, hLog, hLeads⟩ := h
        exact ⟨(i, outcome) :: calls, e, by simpa using hLog, .call hLeads⟩

/-! ### Accounting for the calls -/

section Account

variable {step : τ → Label → Option τ} {admits : τ → Label → Prop} {shows : Label → Outcome ι ε ρ}
  {Related : σ → τ → Prop} {start : τ}

/-- A step of the machine accounts for a call that left this state. -/
def Accounts (step : τ → Label → Option τ) (admits : τ → Label → Prop) (shows : Label → Outcome ι ε ρ)
    (Related : σ → τ → Prop) (t : τ) (call : Outcome ι ε ρ) (s : σ) : Prop :=
  ∃ label u, shows label = call ∧ admits t label ∧ step t label = some u ∧ Related s u

/-- A run of the machine accounts for the log. -/
def Accounted (step : τ → Label → Option τ) (admits : τ → Label → Prop) (shows : Label → Outcome ι ε ρ)
    (Related : σ → τ → Prop) (start : τ) (w : Logged ι ε ρ σ) : Prop :=
  ∃ labels t, Runs step admits start labels t ∧ labels.map shows = w.log ∧ Related w.state t

theorem accounted_start {s : σ} (h : Related s start) : Accounted step admits shows Related start ⟨s, []⟩ :=
  ⟨[], start, .nil _, rfl, h⟩

theorem accounted_snoc {labels : List Label} {t : τ} {log : List (Outcome ι ε ρ)} {call : Outcome ι ε ρ} {s : σ}
    (run : Runs step admits start labels t) (hLog : labels.map shows = log)
    (h : Accounts step admits shows Related t call s) :
    Accounted step admits shows Related start ⟨s, log ++ [call]⟩ := by
  obtain ⟨label, u, hShows, hAdmits, hStep, hRelated⟩ := h
  exact ⟨labels ++ [label], u, .snoc run hAdmits hStep, by simp [hLog, hShows], hRelated⟩

/-- When each call is accounted for, so is every run of every program, wherever it stops. -/
theorem keeps_exec_accounted
    (hCall : ∀ n i t, Contract (Related · t) (handle n i)
      (fun a => Accounts step admits shows Related t (i, .ok a))
      fun e => Accounts step admits shows Related t (i, .error e)) (p : Interaction ι ε ρ) :
    Keeps (Accounted step admits shows Related start) (p.exec handle) := by
  induction p with
  | done => exact keeps_pure ()
  | fail e => exact keeps_throw e
  | call i next ih =>
      have hAttempt : Keeps (Accounted step admits shows Related start) (attempt handle i) := by
        have hTriple : Triple (Accounted step admits shows Related start) (attempt handle i)
            (fun _ => Accounted step admits shows Related start) (Accounted step admits shows Related start) := by
          refine triple_attempt fun w h s hState => ?_
          obtain ⟨labels, t, run, hLog, hRelated⟩ := h
          have hEnd := hCall w.log.length i t s (hState ▸ hRelated)
          cases hRun : (handle w.log.length i).run s with
          | ok a s' =>
              rw [hRun] at hEnd
              exact accounted_snoc run hLog hEnd
          | error e s' =>
              rw [hRun] at hEnd
              exact accounted_snoc run hLog hEnd
        exact fun w h => hTriple.state h
      exact keeps_bind hAttempt ih

/-! ### Rules for programs over the machine -/

/-- Whatever comes of its calls, when the program is through the machine is in a state of the first kind, and when
it has failed in one of the second. -/
def Covers (step : τ → Label → Option τ) (admits : τ → Label → Prop) (shows : Label → Outcome ι ε ρ)
    (Post Stop : τ → Prop) : Interaction ι ε ρ → τ → Prop
  | .done, t => Post t
  | .fail _, t => Stop t
  | .call i next, t => ∀ outcome label u, shows label = (i, outcome) → admits t label → step t label = some u →
      Covers step admits shows Post Stop (next outcome) u

variable {t u : τ} {Post Stop : τ → Prop} {p q : Interaction ι ε ρ}

/-- A call that is not caught. -/
theorem covers_callThen {i : ι} {next : ρ → Interaction ι ε ρ}
    (h : ∀ a label u, shows label = (i, .ok a) → admits t label → step t label = some u →
      Covers step admits shows Post Stop (next a) u)
    (hStop : ∀ e label u, shows label = (i, .error e) → admits t label → step t label = some u → Stop u) :
    Covers step admits shows Post Stop (callThen i next) t := by
  intro outcome label u hShows hAdmits hStep
  cases outcome with
  | ok a => exact h a label u hShows hAdmits hStep
  | error e => exact hStop e label u hShows hAdmits hStep

/-- The rules go on from wherever the calls lead. -/
theorem Covers.through {labels : List Label} (h : Covers step admits shows Post Stop p t)
    (hLeads : Leads p (labels.map shows) q) (run : Runs step admits t labels u) :
    Covers step admits shows Post Stop q u := by
  generalize hCalls : labels.map shows = calls at hLeads
  induction hLeads generalizing t labels with
  | here =>
      obtain rfl := List.map_eq_nil_iff.mp hCalls
      obtain rfl := run.eq_of_nil
      exact h
  | call _ ih =>
      obtain ⟨label, later, rfl, hShows, hLater⟩ := List.map_eq_cons_iff.mp hCalls
      obtain ⟨middle, hAdmits, hStep, hRest⟩ := run.cons_inv
      exact ih (h _ label middle hShows hAdmits hStep) hRest hLater

/-- What the rules say of the machine is so of what it accounts for. -/
theorem Covers.exec (h : Covers step admits shows Post Stop p start)
    (hCall : ∀ n i t, Contract (Related · t) (handle n i)
      (fun a => Accounts step admits shows Related t (i, .ok a))
      fun e => Accounts step admits shows Related t (i, .error e)) {s : σ} (hStart : Related s start) :
    Triple (· = ⟨s, []⟩) (p.exec handle) (fun _ w => ∃ t, Related w.state t ∧ Post t)
      fun w => ∃ t, Related w.state t ∧ Stop t := by
  intro w hw
  have hAccounted := keeps_exec_accounted hCall p w (hw ▸ accounted_start hStart)
  have hLeads := triple_exec_leads handle p [] w (by rw [hw])
  cases hRun : (p.exec handle).run w with
  | ok a w' =>
      rw [hRun, state_ok] at hAccounted
      rw [hRun] at hLeads
      obtain ⟨labels, t, run, hLog, hRelated⟩ := hAccounted
      obtain ⟨calls, hCalls, hThrough⟩ := hLeads
      rw [List.nil_append, ← hLog] at hCalls
      exact ⟨t, hRelated, h.through (q := .done) (hCalls ▸ hThrough) run⟩
  | error e w' =>
      rw [hRun, state_error] at hAccounted
      rw [hRun] at hLeads
      obtain ⟨labels, t, run, hLog, hRelated⟩ := hAccounted
      obtain ⟨calls, e, hCalls, hThrough⟩ := hLeads
      rw [List.nil_append, ← hLog] at hCalls
      exact ⟨t, hRelated, h.through (q := .fail e) (hCalls ▸ hThrough) run⟩

end Account

end Interaction

end Semantics
