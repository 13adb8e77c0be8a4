import MirCi.PytestPlugin.DepsCalls

/-! What a call of `_deps_install` has provided when it returns, by what happened up to then. -/
namespace MirCi.PytestPlugin.Deps

open Python Semantics Effect

/-- `pip` has nothing to do for the package, or installed it. -/
def PipProvided (host : Host) (history : History) (pkg : PipPkg) : Prop :=
  (∃ before, before <+: history ∧ host.imports before (pkg.module.getD pkg.pkg) = .found) ∨
    ∃ pkgs out, pkg.pkg ∈ pkgs ∧ .ran (.pipInstall pkgs) (.exited 0 out) ∈ history

/-- The warning in place of an installation of debs. -/
def missingTools : Event := .warned "Skipping deb installation due to missing tools."

/-- What the request is for is there. A snap whose change dropped off the list of changes is left aside. -/
structure Provided (host : Host) (history : History) (r : Request) : Prop where
  debs : (∀ deb ∈ r.debs, Present history deb) ∨ missingTools ∈ history
  snaps : ∀ snap ∈ r.snaps, SnapPresent host history snap
  pips : ∀ pkg ∈ r.pipPkgs, PipProvided host history pkg

section Later

variable {host : Host} {history further : History}

theorem Present.later {deb : String} (h : Present history deb) (hLater : history <+: further) : Present further deb := by
  obtain ⟨more, rfl⟩ := hLater
  exact h.append more

theorem SnapPresent.later {snap : String} (h : SnapPresent host history snap) (hLater : history <+: further) :
    SnapPresent host further snap := by
  obtain ⟨more, rfl⟩ := hLater
  exact h.append more

theorem PipProvided.later {pkg : PipPkg} (h : PipProvided host history pkg) (hLater : history <+: further) :
    PipProvided host further pkg := by
  cases h with
  | inl hFound =>
      obtain ⟨before, hBefore, hFound⟩ := hFound
      exact .inl ⟨before, hBefore.trans hLater, hFound⟩
  | inr hInstalled =>
      obtain ⟨pkgs, out, hPkg, hRan⟩ := hInstalled
      exact .inr ⟨pkgs, out, hPkg, hLater.subset hRan⟩

theorem Provided.later {r : Request} (h : Provided host history r) (hLater : history <+: further) :
    Provided host further r where
  debs := h.debs.imp (fun hDebs deb hDeb => (hDebs deb hDeb).later hLater) fun hWarned => hLater.subset hWarned
  snaps snap hSnap := (h.snaps snap hSnap).later hLater
  pips pkg hPkg := (h.pips pkg hPkg).later hLater

end Later

section Call

variable {host : Host} {polls : ℕ} {s t : Session}

end Call

end MirCi.PytestPlugin.Deps
