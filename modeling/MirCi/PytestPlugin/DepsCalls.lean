import MirCi.PytestPlugin.DepsRecord
import MirCi.Semantics.Run

/-! What one call records when it returns and when it raises, what it tries again, and
that the record of a session is sound through any sequence of calls. -/
namespace MirCi.PytestPlugin.Deps

open Python Semantics Effect

/-- What holds whatever command runs. -/
structure Steady (Inv : Session → Prop) : Prop where
  after : ∀ {s} e, Inv s → Inv (s.after e)
  ppa : ∀ {s p}, Inv s → Inv { s with ppa := p }

theorem Steady.stable {host : Host} {Inv : Session → Prop} (h : Steady Inv) : Stable host Inv where
  after _ := h.after _
  ppa := h.ppa

section Steady

variable {Inv : Session → Prop} {Stop : Session → Prop} {host : Host}

theorem keeps_snapInstall (h : Steady Inv) (polls : ℕ) (snap channel : String) (classic : Bool) :
    Keeps Inv (snapInstall host polls snap channel classic) := by
  refine keeps_bind (keeps_checkOutput fun _ _ => h.after _) fun out => ?_
  dsimp only
  exact keeps_ite (fun _ => keeps_pure true) fun _ => keeps_waitForChange h.stable (strip out) polls

theorem keeps_installMissing (h : Steady Inv) (unchecked : Finset String) (e : Exc) :
    Keeps Inv (if e.isa .calledProcessError then do
      getPpa host
      checkCall host (.aptInstall unchecked)
    else throw e) := by
  refine keeps_ite (fun _ => ?_) fun _ => keeps_throw e
  exact keeps_bind (keeps_getPpa h.stable) fun _ => keeps_checkCall fun _ _ => h.after _

theorem triple_provideDebs_of (h : Steady Inv) {unchecked : Finset String} {Last : Session → Prop}
    (hStop : ∀ s, Inv s → Stop s) (hRecord : Triple Inv (recordDebs unchecked) (fun _ => Last) Stop) :
    Triple Inv (provideDebs host unchecked) (fun _ => Last) Stop := by
  refine triple_after_keeps (keeps_tryCatch ?_ fun e => ?_) hStop fun _ => hRecord
  · exact keeps_checkCall fun _ _ => h.after _
  · exact keeps_installMissing h unchecked e

/-- After the wait for a snap only the record is new. -/
theorem triple_afterWait_of (h : Steady Inv) {snap : String} {Last : Bool → Session → Prop} (ended : Bool)
    (hStop : ∀ s, Inv s → Stop s) (hWaits : ∀ s, Inv s → Last false s)
    (hRecord : Triple Inv (recordSnap snap) (fun _ => Last true) Stop) :
    Triple Inv (if ended then do
      setUp host snap
      connectSnap host snap
      recordSnap snap
      pure true
    else pure false) Last Stop := by
  split
  · refine triple_after_keeps (keeps_setUp h.stable snap) hStop fun _ => ?_
    refine triple_after_keeps (keeps_connectSnap h.stable snap) hStop fun _ => ?_
    exact triple_bind hRecord fun _ => triple_pure true fun _ hLast => hLast
  · exact triple_pure false hWaits

theorem triple_provideSnap_of (h : Steady Inv) {polls : ℕ} {snap channel : String} {classic : Bool}
    {Last : Bool → Session → Prop} (hStop : ∀ s, Inv s → Stop s) (hWaits : ∀ s, Inv s → Last false s)
    (hRecord : Triple Inv (recordSnap snap) (fun _ => Last true) Stop) :
    Triple Inv (provideSnap host polls snap channel classic) Last Stop :=
  triple_after_keeps (keeps_snapInstall h polls snap channel classic) hStop fun ended =>
    triple_afterWait_of h ended hStop hWaits hRecord

end Steady

/-! ### What a call records -/

/-- The record is this. -/
def OnRecord (debs snaps : Finset String) (s : Session) : Prop := s.debs = debs ∧ s.snaps = snaps

theorem onRecord_steady (debs snaps : Finset String) : Steady (OnRecord debs snaps) := ⟨fun _ h => h, fun h => h⟩

/-- The snap of a request, if it names one. -/
def Request.snaps (r : Request) : Finset String := r.snap.toFinset \ {""}

section Record

variable {host : Host} {debs snaps : Finset String}

/-- With the tools there, the debs are on record afterwards, unless the step raises. -/
theorem triple_installDebs_record (hTools : ∀ history, host.which history "dpkg" = true ∧
    host.which history "apt-get" = true) (wanted : List String) :
    Triple (OnRecord debs snaps) (installDebs host wanted) (fun _ => OnRecord (debs ∪ wanted.toFinset) snaps)
      (OnRecord debs snaps) := by
  refine triple_get_bind_of fun s hRecord => ?_
  obtain ⟨rfl, rfl⟩ := hRecord
  split
  · rename_i hNone
    refine triple_pure () fun t h => ?_
    rwa [hNone, List.toFinset_nil, Finset.union_empty]
  · rw [if_pos (hTools s.history)]
    split
    · rename_i hChecked
      refine triple_pure () fun t h => ?_
      rwa [Finset.union_eq_left.mpr (Finset.sdiff_eq_empty_iff_subset.mp hChecked)]
    · refine triple_provideDebs_of (onRecord_steady _ _) (fun _ h => h) ?_
      rintro t ⟨hDebs, hSnaps⟩
      refine ⟨?_, hSnaps⟩
      change t.debs ∪ (wanted.toFinset \ s.debs) = s.debs ∪ wanted.toFinset
      rw [hDebs, Finset.union_sdiff_self_eq_union]

/-- The snap is on record once the wait for it ended, unless the step raises. -/
theorem triple_installSnap_record (polls : ℕ) (r : Request) :
    Triple (OnRecord debs snaps) (installSnap host polls r)
      (fun ended => OnRecord debs (if ended then snaps ∪ r.snaps else snaps)) (OnRecord debs snaps) := by
  refine triple_get_bind_of fun s hRecord => ?_
  obtain ⟨rfl, rfl⟩ := hRecord
  cases hSnap : r.snap with
  | none =>
      refine triple_pure true fun t h => ?_
      simpa [Request.snaps, hSnap] using h
  | some snap =>
      dsimp only
      split
      · rename_i hKnown
        refine triple_pure true fun t h => ?_
        have hNothing : s.snaps ∪ r.snaps = s.snaps := by
          rw [Finset.union_eq_left]
          intro other hOther
          obtain ⟨rfl, hNamed⟩ : other = snap ∧ other ≠ "" := by simpa [Request.snaps, hSnap] using hOther
          exact hKnown.resolve_left hNamed
        rwa [if_pos rfl, hNothing]
      · rename_i hNew
        rw [not_or] at hNew
        refine triple_provideSnap_of (onRecord_steady _ _) (fun _ h => h) (fun _ h => h) ?_
        rintro t ⟨hDebs, hSnaps⟩
        refine ⟨hDebs, ?_⟩
        have hWanted : r.snaps = {snap} := by
          rw [Request.snaps, hSnap, Option.toFinset_some, Finset.sdiff_singleton_eq_erase,
            Finset.erase_eq_of_notMem (by simpa [eq_comm] using hNew.1)]
        change insert snap t.snaps = s.snaps ∪ r.snaps
        rw [hSnaps, hWanted, Finset.union_comm, Finset.insert_eq]

end Record

/-- The step in which a call raised. It put nothing on record. -/
inductive FailedStep (host : Host) (polls : ℕ) (r : Request) (s : Session) (e : Exc) (t : Session) : Prop where
  | debs (hRun : (installDebs host r.debs).run s = .error e t) (hRecord : OnRecord s.debs s.snaps t)
  | snap (u : Session) (hDebs : (installDebs host r.debs).run s = .ok () u)
      (hRun : (installSnap host polls r).run u = .error e t) (hRecord : OnRecord u.debs u.snaps t)
  | pips (u v : Session) (hDebs : (installDebs host r.debs).run s = .ok () u)
      (hSnap : (installSnap host polls r).run u = .ok true v)
      (hRun : (installPips host r.pipPkgs).run v = .error e t) (hRecord : OnRecord v.debs v.snaps t)

section Call

variable {host : Host} {polls : ℕ} {r : Request} {s t : Session}

/-- When a call returns, what it was made for is on record. -/
theorem install_returned (hTools : ∀ history, host.which history "dpkg" = true ∧
    host.which history "apt-get" = true) (h : (install host polls r).run s = .ok true t) :
    t.debs = s.debs ∪ r.debs.toFinset ∧ t.snaps = s.snaps ∪ r.snaps := by
  obtain ⟨⟨⟩, u, hDebs, hRest⟩ := run_bind_ok.mp h
  have hFirst := (triple_installDebs_record hTools r.debs).of_ok ⟨rfl, rfl⟩ hDebs
  obtain ⟨ended, v, hSnap, hLast⟩ := run_bind_ok.mp hRest
  have hSecond := (triple_installSnap_record polls r).of_ok hFirst hSnap
  cases ended with
  | false => cases hLast
  | true =>
      have hPips : Triple (OnRecord (s.debs ∪ r.debs.toFinset) (s.snaps ∪ r.snaps))
          (do installPips host r.pipPkgs; pure true : Call Bool)
          (fun _ => OnRecord (s.debs ∪ r.debs.toFinset) (s.snaps ∪ r.snaps)) fun _ => True :=
        triple_after_keeps (keeps_installPips (onRecord_steady _ _).stable r.pipPkgs) (fun _ _ => trivial)
          fun _ => triple_pure true fun _ hRecord => hRecord
      exact hPips.of_ok hSecond hLast

/-- When a call raises, the step in which it does so has recorded nothing. -/
theorem install_raised (hTools : ∀ history, host.which history "dpkg" = true ∧
    host.which history "apt-get" = true) {e : Exc} (h : (install host polls r).run s = .error e t) :
    FailedStep host polls r s e t := by
  rcases run_bind_error.mp h with hRun | ⟨⟨⟩, u, hDebs, hRest⟩
  · exact .debs hRun ((triple_installDebs_record hTools r.debs).of_error ⟨rfl, rfl⟩ hRun)
  · rcases run_bind_error.mp hRest with hRun | ⟨ended, v, hSnap, hLast⟩
    · exact .snap u hDebs hRun ((triple_installSnap_record polls r).of_error ⟨rfl, rfl⟩ hRun)
    · cases ended with
      | false => cases hLast
      | true =>
          rcases run_bind_error.mp hLast with hRun | ⟨-, w, -, hNever⟩
          · have hKeeps : Keeps (OnRecord v.debs v.snaps) (installPips host r.pipPkgs) :=
              keeps_installPips (onRecord_steady v.debs v.snaps).stable r.pipPkgs
            have hRecord := hKeeps v ⟨rfl, rfl⟩
            rw [hRun] at hRecord
            exact .pips u v hDebs hSnap hRun hRecord
          · cases hNever

end Call

/-! ### What a call tries again -/

/-- The history after these commands. -/
def Host.ran (host : Host) (history : History) (commands : List Command) : History :=
  commands.foldl (fun history command => history ++ [.ran command (host.ends history command)]) history

/-- Nothing of this is undone. -/
def Past (history : History) (s : Session) : Prop := history <+: s.history

theorem past_steady (history : History) : Steady (Past history) where
  after e h := h.trans (List.prefix_append _ [e])
  ppa h := h

section Past

variable {host : Host} {history : History} {s : Session}

theorem keeps_recordDebs (debs : Finset String) : Keeps (Past history) (recordDebs debs) :=
  keeps_bind (keeps_modify fun _ h => h) fun _ => keeps_modify fun _ => (past_steady history).after _

theorem keeps_recordSnap (snap : String) : Keeps (Past history) (recordSnap snap) :=
  keeps_bind (keeps_modify fun _ h => h) fun _ => keeps_modify fun _ => (past_steady history).after _

theorem triple_recordSnap_past (snap : String) :
    Triple (Past history) (recordSnap snap) (fun _ => Past history) (Past history) :=
  triple_of_keeps (keeps_recordSnap snap) (fun _ _ h => h) fun _ h => h

theorem triple_provideSnap_past (polls : ℕ) (snap channel : String) (classic : Bool) :
    Triple (Past history) (provideSnap host polls snap channel classic) (fun _ => Past history)
      (Past history) :=
  triple_provideSnap_of (past_steady history) (fun _ h => h) (fun _ h => h)
    (triple_recordSnap_past snap)

theorem triple_installSnap_past (polls : ℕ) (r : Request) :
    Triple (Past history) (installSnap host polls r) (fun _ => Past history) (Past history) := by
  refine triple_get_bind fun s => ?_
  cases r.snap with
  | none => exact triple_pure true fun _ h => h
  | some snap =>
      dsimp only
      split
      · exact triple_pure true fun _ h => h
      · exact triple_provideSnap_past polls snap r.channel r.classic

/-- After the step for the debs a call adds to what has happened. -/
theorem triple_afterDebs_past (polls : ℕ) (r : Request) :
    Triple (Past history) (do
      let ended ← installSnap host polls r
      if ended then do
        installPips host r.pipPkgs
        pure true
      else pure false) (fun _ => Past history) (Past history) := by
  refine triple_bind (triple_installSnap_past polls r) fun ended => ?_
  split
  · exact triple_after_keeps (keeps_installPips (past_steady history).stable r.pipPkgs) (fun _ h => h)
      fun _ => triple_pure true fun _ h => h
  · exact triple_pure false fun _ h => h

/-- What follows a checked command leaves it in the history. -/
theorem triple_checkOutput_past (command : Command) (s : Session) :
    Triple (fun t => t = s) (checkOutput host command) (fun _ => Past (host.ran s.history [command]))
      (Past (host.ran s.history [command])) := by
  rintro t rfl
  have hRan : Past (host.ran t.history [command]) (state ((checkOutput host command).run t)) := by
    rw [state_checkOutput]
    exact List.prefix_rfl
  cases hRun : (checkOutput host command).run t with
  | ok u v => rwa [hRun] at hRan
  | error e v => rwa [hRun] at hRan

theorem triple_checkCall_past (command : Command) (s : Session) :
    Triple (fun t => t = s) (checkCall host command) (fun _ => Past (host.ran s.history [command]))
      (Past (host.ran s.history [command])) :=
  triple_bind (triple_checkOutput_past command s) fun _ => triple_pure () fun _ h => h

theorem triple_recordDebs_past (debs : Finset String) :
    Triple (Past history) (recordDebs debs) (fun _ => Past history) (Past history) :=
  triple_of_keeps (keeps_recordDebs debs) (fun _ _ h => h) fun _ h => h

/-- The debs that are not on record are looked up first. -/
theorem provideDebs_looksUp (unchecked : Finset String) :
    Past (host.ran s.history [.dpkgStatus unchecked]) (state ((provideDebs host unchecked).run s)) := by
  have hProvide : Triple (fun t => t = s) (provideDebs host unchecked)
      (fun _ => Past (host.ran s.history [.dpkgStatus unchecked]))
      (Past (host.ran s.history [.dpkgStatus unchecked])) := by
    refine triple_bind (triple_tryCatch (triple_checkCall_past (.dpkgStatus unchecked) s) fun e => ?_) fun _ =>
      triple_recordDebs_past unchecked
    exact triple_of_keeps (keeps_installMissing (past_steady _) unchecked e) (fun _ _ h => h) fun _ h => h
  exact hProvide.state rfl

/-- When they are not there, the archive is set up, and they are installed. -/
theorem provideDebs_run_missing {unchecked : Finset String} {status : ℤ} {out : String}
    (hLooked : host.ends s.history (.dpkgStatus unchecked) = .exited status out) (hStatus : status ≠ 0) :
    (provideDebs host unchecked).run s =
      (do
        getPpa host
        checkCall host (.aptInstall unchecked)
        recordDebs unchecked : Call Unit).run (s.after (.ran (.dpkgStatus unchecked) (.exited status out))) := by
  have hCheck : (checkCall host (.dpkgStatus unchecked)).run s =
      .error calledProcessError (s.after (.ran (.dpkgStatus unchecked) (.exited status out))) := by
    rw [checkCall, EStateM.run_bind, checkOutput_run_of_exited hLooked, if_neg hStatus]
  rw [provideDebs, EStateM.run_bind, run_tryCatch, hCheck, ← bind_assoc, EStateM.run_bind]
  rfl

/-- The installation of what is missing begins once the archive is set up. -/
theorem provideDebs_installs {unchecked : Finset String} {status : ℤ} {out : String} {u : Session}
    (hLooked : host.ends s.history (.dpkgStatus unchecked) = .exited status out) (hStatus : status ≠ 0)
    (hPpa : (getPpa host).run (s.after (.ran (.dpkgStatus unchecked) (.exited status out))) = .ok () u) :
    Past (host.ran u.history [.aptInstall unchecked]) (state ((provideDebs host unchecked).run s)) := by
  rw [provideDebs_run_missing hLooked hStatus, EStateM.run_bind, hPpa]
  exact (triple_bind (triple_checkCall_past (.aptInstall unchecked) u) fun _ =>
    triple_recordDebs_past unchecked).state rfl

theorem provideSnap_installs (polls : ℕ) (snap channel : String) (classic : Bool) :
    Past (host.ran s.history [.snapInstall snap channel classic])
      (state ((provideSnap host polls snap channel classic).run s)) := by
  have hSteady := past_steady (host.ran s.history [.snapInstall snap channel classic])
  have hWait : ∀ out, Keeps (Past (host.ran s.history [.snapInstall snap channel classic]))
      (if strip out = "" then pure true else waitForChange host (strip out) polls) := fun out =>
    keeps_ite (fun _ => keeps_pure true) fun _ => keeps_waitForChange hSteady.stable (strip out) polls
  have hInstall := triple_bind (triple_checkOutput_past (.snapInstall snap channel classic) s) fun out =>
    triple_of_keeps (hWait out) (fun _ _ h => h) fun _ h => h
  refine (triple_bind hInstall fun ended => ?_).state rfl
  exact triple_afterWait_of hSteady ended (fun _ h => h) (fun _ h => h) (triple_recordSnap_past snap)

/-- The installation of a snap that is not on record begins. -/
theorem installSnap_installs (polls : ℕ) {r : Request} {snap : String} (hSnap : r.snap = some snap)
    (hNamed : snap ≠ "") (hNew : snap ∉ s.snaps) :
    Past (host.ran s.history [.snapInstall snap r.channel r.classic])
      (state ((installSnap host polls r).run s)) := by
  have hRun : (installSnap host polls r).run s = (provideSnap host polls snap r.channel r.classic).run s := by
    rw [installSnap, hSnap]
    change (if snap = "" ∨ snap ∈ s.snaps then pure true
      else provideSnap host polls snap r.channel r.classic : Call Bool).run s = _
    rw [if_neg (not_or.mpr ⟨hNamed, hNew⟩)]
  rw [hRun]
  exact provideSnap_installs polls snap r.channel r.classic

theorem installDebs_run (hTools : ∀ history, host.which history "dpkg" = true ∧
    host.which history "apt-get" = true) {debs : List String} (hNew : debs.toFinset \ s.debs ≠ ∅) :
    (installDebs host debs).run s = (provideDebs host (debs.toFinset \ s.debs)).run s := by
  change ((if debs = [] then pure ()
    else if host.which s.history "dpkg" ∧ host.which s.history "apt-get" then
      if debs.toFinset \ s.debs = ∅ then pure () else provideDebs host (debs.toFinset \ s.debs)
    else happen (.warned "Skipping deb installation due to missing tools.") : Call Unit)).run s = _
  have hSome : debs ≠ [] := by
    rintro rfl
    exact hNew (by simp)
  rw [if_neg hSome, if_pos (hTools s.history), if_neg hNew]

/-- A look at the modules changes nothing, and what is not missing was found. -/
theorem findPips_run {pkgs : List PipPkg} {missing : List String} {t : Session}
    (h : (findPips host pkgs).run s = .ok missing t) :
    t = s ∧ ∀ pkg ∈ pkgs, pkg.pkg ∈ missing ∨ host.imports s.history (pkg.module.getD pkg.pkg) = .found := by
  induction pkgs generalizing missing with
  | nil =>
      cases h
      exact ⟨rfl, fun _ hPkg => by cases hPkg⟩
  | cons pkg rest ih =>
      rw [findPips] at h
      obtain ⟨_, _, hGet, h⟩ := run_bind_ok.mp h
      cases hGet
      cases hImport : host.imports s.history (pkg.module.getD pkg.pkg) with
      | found =>
          rw [hImport] at h
          obtain ⟨hSame, hRest⟩ := ih h
          exact ⟨hSame, List.forall_mem_cons.mpr ⟨.inr hImport, hRest⟩⟩
      | missing =>
          rw [hImport] at h
          obtain ⟨others, u, hOthers, hLast⟩ := run_bind_ok.mp h
          cases hLast
          obtain ⟨hSame, hRest⟩ := ih hOthers
          refine ⟨hSame, List.forall_mem_cons.mpr ⟨.inl List.mem_cons_self, fun other hOther => ?_⟩⟩
          exact (hRest other hOther).imp (List.mem_cons_of_mem _) id
      | raised e =>
          rw [hImport] at h
          cases h

/-- The installation of the modules that are missing begins. -/
theorem installPips_installs {pkgs : List PipPkg} {missing : List String} {t : Session}
    (hMissing : (findPips host pkgs).run s = .ok missing t) (hSome : missing ≠ []) :
    Past (host.ran s.history [.pipInstall missing]) (state ((installPips host pkgs).run s)) := by
  obtain ⟨rfl, -⟩ := findPips_run hMissing
  rw [installPips, EStateM.run_bind, hMissing]
  dsimp only
  rw [if_neg hSome]
  exact (triple_checkCall_past (.pipInstall missing) t).state rfl

/-- What happened in the step for the debs is not undone. -/
theorem past_install (polls : ℕ) {r : Request} (h : Past history (state ((installDebs host r.debs).run s))) :
    Past history (state ((install host polls r).run s)) := by
  rw [install, EStateM.run_bind]
  cases hRun : (installDebs host r.debs).run s with
  | ok u t =>
      rw [hRun] at h
      exact (triple_afterDebs_past polls r).state h
  | error e t => rwa [hRun] at h

theorem past_installSnap (polls : ℕ) {r : Request} {u : Session}
    (hDebs : (installDebs host r.debs).run s = .ok () u)
    (h : Past history (state ((installSnap host polls r).run u))) :
    Past history (state ((install host polls r).run s)) := by
  rw [install, EStateM.run_bind, hDebs]
  dsimp only
  rw [EStateM.run_bind]
  cases hRun : (installSnap host polls r).run u with
  | ok ended t =>
      rw [hRun] at h
      have hPips : Keeps (Past history) (if ended then do
          installPips host r.pipPkgs
          pure true
        else pure false : Call Bool) := by
        refine keeps_ite (fun _ => ?_) fun _ => keeps_pure false
        exact keeps_bind (keeps_installPips (past_steady history).stable r.pipPkgs) fun _ => keeps_pure true
      exact hPips t h
  | error e t => rwa [hRun] at h

/-- What happened in the step for the packages of `pip` is the end of the call. -/
theorem past_installPips (polls : ℕ) {r : Request} {u v : Session}
    (hDebs : (installDebs host r.debs).run s = .ok () u) (hSnap : (installSnap host polls r).run u = .ok true v)
    (h : Past history (state ((installPips host r.pipPkgs).run v))) :
    Past history (state ((install host polls r).run s)) := by
  rw [install, EStateM.run_bind, hDebs]
  dsimp only
  rw [EStateM.run_bind, hSnap]
  dsimp only
  rw [if_pos rfl, EStateM.run_bind]
  cases hRun : (installPips host r.pipPkgs).run v with
  | ok done t => rwa [hRun] at h
  | error e t => rwa [hRun] at h

end Past

/-! ### A session -/

/-- What a call for this request does in this state, if it ends so. It looks again for all that is not on
record: each step of it that the steps before it let it reach begins with the command for what is missing. -/
structure CallSound (host : Host) (polls : ℕ) (r : Request) (s : Session)
    (result : EStateM.Result Exc Session (Option (List (Option String) × Option AppType))) : Prop where
  returned : ∀ app t, result = .ok (some app) t → (∀ deb ∈ r.debs, deb ∈ t.debs) ∧ r.snaps ⊆ t.snaps
  raised : ∀ e t, result = .error e t → FailedStep host polls r s e t
  looksUp : r.debs.toFinset \ s.debs ≠ ∅ →
    Past (host.ran s.history [.dpkgStatus (r.debs.toFinset \ s.debs)]) (state result)
  installs : r.debs.toFinset \ s.debs ≠ ∅ → ∀ status out u, status ≠ 0 →
    host.ends s.history (.dpkgStatus (r.debs.toFinset \ s.debs)) = .exited status out →
    (getPpa host).run (s.after (.ran (.dpkgStatus (r.debs.toFinset \ s.debs)) (.exited status out))) = .ok () u →
    Past (host.ran u.history [.aptInstall (r.debs.toFinset \ s.debs)]) (state result)
  installsSnap : ∀ u, (installDebs host r.debs).run s = .ok () u → ∀ snap ∈ r.snaps, snap ∉ u.snaps →
    Past (host.ran u.history [.snapInstall snap r.channel r.classic]) (state result)
  installsPips : ∀ u v, (installDebs host r.debs).run s = .ok () u →
    (installSnap host polls r).run u = .ok true v → ∀ missing w, missing ≠ [] →
    (findPips host r.pipPkgs).run v = .ok missing w →
    Past (host.ran v.history [.pipInstall missing]) (state result)

section Session

variable {host : Host} {polls : ℕ} {r : Request} {spec : Spec} {s : Session} {p : Progress}

theorem depsInstall_run (host : Host) (polls : ℕ) (hRead : spec.read = .ok r) (s : Session) :
    (depsInstall host true polls spec).run s = (do
      let ended ← install host polls r
      pure (if ended then some (r.cmd, r.appType) else none) : Call _).run s := by
  rw [depsInstall, hRead]
  rfl

theorem state_depsInstall (hRead : spec.read = .ok r) :
    state ((depsInstall host true polls spec).run s) = state ((install host polls r).run s) := by
  rw [depsInstall_run host polls hRead, EStateM.run_bind]
  cases (install host polls r).run s <;> rfl

theorem callSound (hTools : ∀ history, host.which history "dpkg" = true ∧
    host.which history "apt-get" = true) (hRead : spec.read = .ok r) :
    CallSound host polls r s ((depsInstall host true polls spec).run s) where
  returned app t h := by
    rw [depsInstall_run host polls hRead] at h
    obtain ⟨ended, u, hInstall, hLast⟩ := run_bind_ok.mp h
    cases ended with
    | false => cases hLast
    | true =>
        cases hLast
        obtain ⟨hDebs, hSnaps⟩ := install_returned hTools hInstall
        rw [hDebs, hSnaps]
        exact ⟨fun deb hDeb => Finset.mem_union_right _ (List.mem_toFinset.mpr hDeb),
          Finset.subset_union_right⟩
  raised e t h := by
    rw [depsInstall_run host polls hRead] at h
    rcases run_bind_error.mp h with hInstall | ⟨ended, u, -, hLast⟩
    · exact install_raised hTools hInstall
    · cases hLast
  looksUp hNew := by
    rw [state_depsInstall hRead]
    refine past_install polls ?_
    rw [installDebs_run hTools hNew]
    exact provideDebs_looksUp _
  installs hNew status out u hStatus hLooked hPpa := by
    rw [state_depsInstall hRead]
    refine past_install polls ?_
    rw [installDebs_run hTools hNew]
    exact provideDebs_installs hLooked hStatus hPpa
  installsSnap u hDebs snap hSnap hNew := by
    rw [state_depsInstall hRead]
    obtain ⟨hWanted, hNamed⟩ : r.snap = some snap ∧ snap ≠ "" := by
      simpa [Request.snaps, eq_comm] using hSnap
    exact past_installSnap polls hDebs (installSnap_installs polls hWanted hNamed hNew)
  installsPips u v hDebs hSnap missing w hSome hMissing := by
    rw [state_depsInstall hRead]
    exact past_installPips polls hDebs hSnap (installPips_installs hMissing hSome)

theorem recordSound_step {q : Progress} {made : ℕ × Spec} (h : RecordSound host p.session)
    (hStep : step host p made = some q) : RecordSound host q.session := by
  have hCall : RecordSound host (state ((depsInstall host true made.1 made.2).run p.session)) := by
    cases hRead : made.2.read with
    | ok r =>
        rw [state_depsInstall hRead]
        exact (triple_install made.1 r).state h
    | error e =>
        rw [depsInstall, hRead]
        exact h
  unfold step at hStep
  split at hStep
  · cases hStep
  · split at hStep <;> rename_i hRun <;> rw [hRun] at hCall <;> cases hStep <;> exact hCall

/-- What is on record was there, and is so at every later time. -/
theorem RecordSound.present (h : RecordSound host s) {deb : String} (hDeb : deb ∈ s.debs) :
    Present s.history deb := by
  obtain ⟨debs, hRecorded, hMem⟩ := (h.debs deb).mp hDeb
  obtain ⟨before, after, hSplit⟩ := List.append_of_mem hRecorded
  rw [hSplit]
  exact (h.sound before _ after hSplit deb hMem).append _

theorem RecordSound.snapPresent (h : RecordSound host s) {snap : String} (hSnap : snap ∈ s.snaps) :
    SnapPresent host s.history snap := by
  obtain ⟨before, after, hSplit⟩ := List.append_of_mem ((h.snaps snap).mp hSnap)
  have hThen : SnapPresent host before snap := h.sound before _ after hSplit
  rw [hSplit]
  exact hThen.append _

/-- After any calls in a session, what is on record was there or was installed, nothing on record was
installed again but for the archive, and the next call records what it was made for, or nothing in the
step that raises, and tries again what is not on record. -/
theorem record_sound (host : Host) (hTools : ∀ history, host.which history "dpkg" = true ∧
    host.which history "apt-get" = true) {calls : List (ℕ × Spec)} {p : Progress}
    (hRun : Runs (step host) Any {} calls p) :
    RecordSound host p.session ∧
      (∀ deb ∈ p.session.debs, Present p.session.history deb) ∧
      (∀ snap ∈ p.session.snaps, ¬Unlisted p.session.history snap → Completed host p.session.history snap) ∧
      ∀ polls spec, (∀ e, spec.read = .error e →
          (depsInstall host true polls spec).run p.session = .error e p.session) ∧
        ∀ r, spec.read = .ok r →
          CallSound host polls r p.session ((depsInstall host true polls spec).run p.session) := by
  have hStart : RecordSound host {} := by
    refine ⟨?_, fun deb => by simp [DebRecorded], fun snap => by simp [SnapRecorded]⟩
    intro before e after hSplit
    simp at hSplit
  have hSound : RecordSound host p.session :=
    hRun.invariant (fun p => RecordSound host p.session) hStart fun _ _ _ h _ hStep => recordSound_step h hStep
  refine ⟨hSound, fun _ => hSound.present, fun _ => hSound.snapPresent, fun polls spec => ⟨?_, ?_⟩⟩
  · intro e hRead
    rw [depsInstall, hRead]
    rfl
  · exact fun r hRead => callSound hTools hRead

/-- All tools are there, nothing is in the environment, and modules are found. -/
def plainHost (ends : Command → Ended) : Host where
  ends _ := ends
  which _ _ := true
  imports _ _ := .found
  environ _ := none
  codename := "noble"

/-- Of the debs only the prerequisite of the archive is there. -/
def noServers : Command → Ended
  | .dpkgStatus debs => .exited (if debs = {"software-properties-common"} then 0 else 1) ""
  | _ => .exited 0 ""

/-- The archive cannot be added. -/
def noArchive : Command → Ended
  | .dpkgStatus _ | .addAptRepository => .exited 1 ""
  | _ => .exited 0 ""

def debsOnly (debs : List String) : ℕ × Spec := (0, .dict { debs })

theorem record_sound_server : ∃ p, Runs (step (plainHost noServers)) Any {} [debsOnly ["mir-demos"]] p ∧
    "mir-demos" ∈ p.session.debs ∧ Present p.session.history "mir-demos" := by
  have hRun : Runs (step (plainHost noServers)) Any {} [debsOnly ["mir-demos"]] _ := Runs.single trivial rfl
  have hMem : "mir-demos" ∈ ((∅ : Finset String) ∪ (["mir-demos"].toFinset \ ∅)) := by decide
  exact ⟨_, hRun, hMem, (record_sound (plainHost noServers) (fun _ => ⟨rfl, rfl⟩) hRun).2.1 _ hMem⟩

/-- A deb on record is installed again for the archive, and setting up the archive is not tried again
after it failed. -/
theorem recorded_installed_again :
    (∃ p before after ended, Runs (step (plainHost noServers)) Any {}
        [debsOnly ["software-properties-common"], debsOnly ["mir-demos"]] p ∧
      p.session.history = before ++ .ran (.aptInstall {"software-properties-common"}) ended :: after ∧
      DebRecorded before "software-properties-common") ∧
    ∃ p, Runs (step (plainHost noArchive)) Any {} [debsOnly ["mir-demos"], debsOnly ["mir-demos"]] p ∧
      p.session.history = [.ran (.dpkgStatus {"mir-demos"}) (.exited 1 ""), .ran .aptCachePolicy (.exited 0 ""),
        .ran (.aptInstall {"software-properties-common"}) (.exited 0 ""), .ran .addAptRepository (.exited 1 ""),
        .ran (.dpkgStatus {"mir-demos"}) (.exited 1 "")] := by
  constructor
  · refine ⟨_, [_, _, _, _], _, _, runs_of_execute rfl fun _ _ _ => trivial, rfl, ?_⟩
    exact ⟨{"software-properties-common"}, .tail _ (.head _), by decide⟩
  · exact ⟨_, runs_of_execute rfl fun _ _ _ => trivial, rfl⟩

end Session

end MirCi.PytestPlugin.Deps
