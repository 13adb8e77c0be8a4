import MirCi.PytestPlugin.DepsInstall

/-! The record of installed dependencies that a session keeps. What is on it was reported or
installed before it went there, and nothing on it is passed to an installation again. Both are read off
the history of a session, which lists what happened in it, oldest first. -/
namespace MirCi.PytestPlugin.Deps

open Python Semantics Effect

/-! ### What an event needs -/

/-- Some call put the deb on record, alone or together with others. -/
def DebRecorded (history : History) (deb : String) : Prop :=
  ∃ debs, .recordedDebs debs ∈ history ∧ deb ∈ debs

def SnapRecorded (history : History) (snap : String) : Prop := .recordedSnap snap ∈ history

/-- `dpkg --status` reported the deb, or an installation of it completed. Both commands take several
debs at once, and an exit with 0 speaks for all of them. -/
def Present (history : History) (deb : String) : Prop :=
  ∃ debs out, deb ∈ debs ∧ (.ran (.dpkgStatus debs) (.exited 0 out) ∈ history ∨
    .ran (.aptInstall debs) (.exited 0 out) ∈ history)

/-- The wait for a change ended well: there was no change to wait for, or the last list shows it done. -/
def Waited (change : String) (waited : History) : Prop :=
  change = "" ∧ waited = [] ∨
    ∃ earlier output, waited = earlier ++ [.ran .snapChanges (.exited 0 output)] ∧
      shows change "Done" output = true

/-- What happens between two looks at the list of changes, and the looks themselves. -/
def OfWait : Event → Prop
  | .ran .snapChanges _ | .printed _ | .slept _ => True
  | _ => False

/-- The wait for a change ended with a list of no changes at all. -/
def Emptied (waited : History) : Prop :=
  ∃ earlier, waited = earlier ++ [.ran .snapChanges (.exited 0 "")] ∧ ∀ e ∈ earlier, OfWait e

/-- The history up to the end of an installation of the snap. `snap install` printed the id of a
change, or nothing. -/
def Installed (history : History) (snap : String) : Prop :=
  ∃ before channel classic out waited,
    history = before ++ [.ran (.snapInstall snap channel classic) (.exited 0 out)] ++ waited ∧
      Waited (strip out) waited

/-- An installation of the snap was waited for until nothing was listed any more, which says nothing
about its change. -/
def Unlisted (history : History) (snap : String) : Prop :=
  ∃ before channel classic out waited after,
    history = before ++ [.ran (.snapInstall snap channel classic) (.exited 0 out)] ++ waited ++ after ∧
      Emptied waited

/-- The snap was installed, and then its set-up script completed if it has one. The script is run
directly after the wait, so nothing stands between the two. -/
def Completed (host : Host) (history : History) (snap : String) : Prop :=
  ∃ before after, history = before ++ after ∧ Installed before snap ∧
    (host.which before (setupPath snap) = true →
      ∃ out rest, after = .ran (.setup snap) (.exited 0 out) :: rest)

/-- The snap is there, as far as the lists of changes can tell. -/
def SnapPresent (host : Host) (history : History) (snap : String) : Prop :=
  ¬Unlisted history snap → Completed host history snap

/-- The set-up of the archive has just found it missing among the sources of `apt`. -/
def ArchiveMissing (host : Host) (before : History) : Prop :=
  ∃ earlier policy, before = earlier ++ [.ran .aptCachePolicy (.exited 0 policy)] ∧
    contains (releasePpaEntry host) policy = false

/-- What has to be so before an event. The set-up of the archive is exempt: its prerequisite is
installed whenever the archive is missing, without a look at the record. -/
def Justified (host : Host) (before : History) : Event → Prop
  | .recordedDebs debs => ∀ deb ∈ debs, Present before deb
  | .recordedSnap snap => SnapPresent host before snap
  | .ran (.aptInstall debs) _ =>
      debs = {"software-properties-common"} ∧ ArchiveMissing host before ∨
        ∀ deb ∈ debs, ¬DebRecorded before deb
  | .ran (.snapInstall snap _ _) _ => ¬SnapRecorded before snap
  | _ => True

/-- All that happened was justified by what had happened before it. -/
def Sound (host : Host) (history : History) : Prop :=
  ∀ before e after, history = before ++ e :: after → Justified host before e

/-- The two sets of the session hold just what its history has put on record, and all that happened in
it was justified. -/
structure RecordSound (host : Host) (s : Session) : Prop where
  sound : Sound host s.history
  debs : ∀ deb, deb ∈ s.debs ↔ DebRecorded s.history deb
  snaps : ∀ snap, snap ∈ s.snaps ↔ SnapRecorded s.history snap

section History

variable {host : Host} {history : History} {e : Event}

theorem Sound.concat (h : Sound host history) (hLast : Justified host history e) :
    Sound host (history ++ [e]) := by
  intro before other after hSplit
  rcases List.eq_nil_or_concat after with rfl | ⟨front, last, rfl⟩
  · obtain ⟨rfl, hSame⟩ := List.append_inj' hSplit rfl
    cases hSame
    exact hLast
  · rw [List.concat_eq_append, ← List.cons_append, ← List.append_assoc] at hSplit
    exact h before other front (List.append_inj' hSplit rfl).1

theorem Present.append {deb : String} (h : Present history deb) (more : History) :
    Present (history ++ more) deb := by
  obtain ⟨debs, out, hDeb, hRan⟩ := h
  exact ⟨debs, out, hDeb, hRan.imp (List.mem_append_left _) (List.mem_append_left _)⟩

end History

/-- Events that need nothing from the record. Nothing is put there, and all that is installed is the
prerequisite of an archive that is missing. -/
def Harmless (host : Host) (before : History) : Event → Prop
  | .ran (.aptInstall debs) _ => debs = {"software-properties-common"} ∧ ArchiveMissing host before
  | .ran (.snapInstall _ _ _) _ | .recordedDebs _ | .recordedSnap _ => False
  | _ => True

theorem justified_of_harmless {host : Host} {before : History} {e : Event} (h : Harmless host before e) :
    Justified host before e := by
  cases e with
  | ran command ended =>
      cases command with
      | aptInstall debs => exact .inl h
      | snapInstall snap channel classic => exact h.elim
      | _ => trivial
  | recordedDebs debs => exact h.elim
  | recordedSnap snap => exact h.elim
  | _ => trivial

theorem OfWait.harmless {host : Host} {before : History} {e : Event} (h : OfWait e) : Harmless host before e := by
  cases e with
  | ran command ended =>
      cases command with
      | snapChanges => trivial
      | _ => exact h.elim
  | recordedDebs debs => exact h.elim
  | recordedSnap snap => exact h.elim
  | _ => trivial

/-- What harmless events, and the outcome of the `ppa` fixture, leave alone. Each part of a call needs one
lemma about it, whatever of a session is asked about. -/
structure Stable (host : Host) (Inv : Session → Prop) : Prop where
  after : ∀ {s e}, Harmless host s.history e → Inv s → Inv (s.after e)
  ppa : ∀ {s p}, Inv s → Inv { s with ppa := p }

section Stable

variable {Inv : Session → Prop} {host : Host}

theorem keeps_happen (h : Stable host Inv) {e : Event} (he : ∀ before, Harmless host before e) :
    Keeps Inv (happen e) := keeps_modify fun s => h.after (he s.history)

theorem keeps_checkOutput {command : Command}
    (h : ∀ s ended, Inv s → Inv (s.after (.ran command ended))) : Keeps Inv (checkOutput host command) := by
  intro s hInv
  rw [state_checkOutput]
  exact h s _ hInv

theorem keeps_checkCall {command : Command}
    (h : ∀ s ended, Inv s → Inv (s.after (.ran command ended))) : Keeps Inv (checkCall host command) :=
  keeps_bind (keeps_checkOutput h) fun _ => keeps_pure ()

theorem keeps_call {command : Command}
    (h : ∀ s ended, Inv s → Inv (s.after (.ran command ended))) : Keeps Inv (call host command) := by
  have hRan : Keeps Inv (run host command) :=
    keeps_get_bind fun s => keeps_bind (keeps_modify fun t => h t _) fun _ => keeps_pure _
  refine keeps_bind hRan fun ended => ?_
  cases ended with
  | exited status stdout => exact keeps_pure ()
  | raised e => exact keeps_throw e

theorem triple_checkOutput {command : Command} {Pre Stop : Session → Prop} {Post : String → Session → Prop}
    (hOk : ∀ s out, Pre s → Post out (s.after (.ran command (.exited 0 out))))
    (hStop : ∀ s ended, Pre s → Stop (s.after (.ran command ended))) :
    Triple Pre (checkOutput host command) Post Stop := by
  intro s hPre
  cases hEnds : host.ends s.history command with
  | exited status out =>
      rw [checkOutput_run_of_exited hEnds]
      by_cases hStatus : status = 0
      · subst hStatus
        exact hOk s out hPre
      · rw [if_neg hStatus]
        exact hStop s _ hPre
  | raised e =>
      rw [checkOutput_run_of_raised hEnds]
      exact hStop s _ hPre

theorem triple_checkCall {command : Command} {Pre Stop : Session → Prop} {Post : Unit → Session → Prop}
    (hOk : ∀ s out, Pre s → Post () (s.after (.ran command (.exited 0 out))))
    (hStop : ∀ s ended, Pre s → Stop (s.after (.ran command ended))) :
    Triple Pre (checkCall host command) Post Stop :=
  triple_bind (triple_checkOutput hOk hStop) fun _ => triple_pure () fun _ hPost => hPost

/-- The prerequisite of the archive is installed directly after the archive was found missing. -/
theorem keeps_ppa (h : Stable host Inv) : Keeps Inv (ppa host) := by
  refine keeps_get_bind fun s => keeps_ite (fun _ => ?_) fun _ => keeps_happen h fun _ => trivial
  have hLooked : Triple Inv (checkOutput host .aptCachePolicy)
      (fun policy s => Inv s ∧ (contains (releasePpaEntry host) policy = false → ArchiveMissing host s.history)) Inv :=
    triple_checkOutput (fun s policy hInv => ⟨h.after trivial hInv, fun hNot => ⟨s.history, policy, rfl, hNot⟩⟩)
      fun _ _ hInv => h.after trivial hInv
  have hInstall : Triple (fun s => Inv s ∧ ArchiveMissing host s.history)
      (checkCall host (.aptInstall {"software-properties-common"})) (fun _ => Inv) Inv :=
    triple_checkCall (fun _ _ hInv => h.after ⟨rfl, hInv.2⟩ hInv.1) fun _ _ hInv => h.after ⟨rfl, hInv.2⟩ hInv.1
  have hArchive : Triple Inv (checkOutput host .aptCachePolicy >>= fun policy =>
      if contains (releasePpaEntry host) policy then pure () else do
        checkCall host (.aptInstall {"software-properties-common"})
        checkCall host .addAptRepository) (fun _ => Inv) Inv := by
    refine triple_bind hLooked fun policy => ?_
    split
    · exact triple_pure () fun _ hInv => hInv.1
    · rename_i hNot
      intro s hInv
      refine triple_bind hInstall (fun _ => ?_) s ⟨hInv.1, hInv.2 (by simpa using hNot)⟩
      exact triple_of_keeps (keeps_checkCall fun _ _ => h.after trivial) (fun _ _ hInv => hInv) fun _ hInv => hInv
  exact fun s hInv => hArchive.state hInv

theorem keeps_getPpa (h : Stable host Inv) : Keeps Inv (getPpa host) := by
  have hKept : ∀ outcome, Keeps Inv (modify fun s => { s with ppa := outcome } : Call Unit) :=
    fun outcome => keeps_modify fun _ => h.ppa
  refine keeps_get_bind fun s => ?_
  match s.ppa with
  | some none => exact keeps_pure ()
  | some (some e) => exact keeps_throw e
  | none =>
      refine keeps_tryCatch (keeps_bind (keeps_ppa h) fun _ => hKept _) fun e => ?_
      refine keeps_ite (fun _ => ?_) fun _ => keeps_throw e
      exact keeps_bind (hKept _) fun _ => keeps_throw e

theorem keeps_waitForChange (h : Stable host Inv) (change : String) (polls : ℕ) :
    Keeps Inv (waitForChange host change polls) := by
  induction polls with
  | zero => exact keeps_pure false
  | succ polls ih =>
      refine keeps_bind (keeps_checkOutput fun _ _ => h.after trivial) fun output => ?_
      refine keeps_ite (fun _ => keeps_pure true) fun _ => keeps_ite (fun _ => keeps_pure true) fun _ => ?_
      refine keeps_ite (fun _ => ?_) fun _ => ?_
      · exact keeps_bind (keeps_checkOutput fun _ _ => h.after trivial) fun _ => keeps_throw _
      · refine keeps_bind (keeps_happen h fun _ => trivial) fun _ => ?_
        exact keeps_bind (keeps_happen h fun _ => trivial) fun _ => ih

theorem keeps_connectSnap (h : Stable host Inv) (snap : String) : Keeps Inv (connectSnap host snap) := by
  refine keeps_bind (keeps_call fun _ _ => h.after trivial) fun _ => ?_
  cases host.environ "MIR_CI_SNAP" with
  | none => exact keeps_pure ()
  | some slot => exact keeps_call fun _ _ => h.after trivial

theorem keeps_setUp (h : Stable host Inv) (snap : String) : Keeps Inv (setUp host snap) :=
  keeps_get_bind fun _ => keeps_ite (fun _ => keeps_checkCall fun _ _ => h.after trivial) fun _ => keeps_pure ()

theorem keeps_findPips (pkgs : List PipPkg) : Keeps Inv (findPips host pkgs) := by
  induction pkgs with
  | nil => exact keeps_pure []
  | cons pkg rest ih =>
      refine keeps_get_bind fun s => ?_
      cases host.imports s.history (pkg.module.getD pkg.pkg) with
      | found => exact ih
      | missing => exact keeps_bind ih fun _ => keeps_pure _
      | raised e => exact keeps_throw e

theorem keeps_installPips (h : Stable host Inv) (pkgs : List PipPkg) : Keeps Inv (installPips host pkgs) := by
  refine keeps_bind (keeps_findPips pkgs) fun missing => ?_
  exact keeps_ite (fun _ => keeps_pure ()) fun _ => keeps_checkCall fun _ _ => h.after trivial

end Stable

/-! ### The record stays sound -/

section Sound

variable {host : Host} {s : Session} {e : Event}

theorem debRecorded_concat {history : History} {deb : String} :
    DebRecorded (history ++ [e]) deb ↔
      DebRecorded history deb ∨ ∃ debs, e = .recordedDebs debs ∧ deb ∈ debs := by
  simp only [DebRecorded, List.mem_append, List.mem_singleton, or_and_right, exists_or, eq_comm]

theorem snapRecorded_concat {history : History} {snap : String} :
    SnapRecorded (history ++ [e]) snap ↔ SnapRecorded history snap ∨ e = .recordedSnap snap := by
  simp only [SnapRecorded, List.mem_append, List.mem_singleton, eq_comm]

/-- A justified event that records nothing. -/
theorem RecordSound.after (h : RecordSound host s) (hJustified : Justified host s.history e)
    (hDebs : ∀ debs, e ≠ .recordedDebs debs) (hSnap : ∀ snap, e ≠ .recordedSnap snap) :
    RecordSound host (s.after e) where
  sound := h.sound.concat hJustified
  debs deb := by
    change deb ∈ s.debs ↔ DebRecorded (s.history ++ [e]) deb
    rw [debRecorded_concat, h.debs]
    simp [hDebs]
  snaps snap := by
    change snap ∈ s.snaps ↔ SnapRecorded (s.history ++ [e]) snap
    rw [snapRecorded_concat, h.snaps]
    simp [hSnap]

theorem recordSound_stable (host : Host) : Stable host (RecordSound host) where
  after he h := h.after (justified_of_harmless he) (fun _ hEq => by subst hEq; exact he)
    fun _ hEq => by subst hEq; exact he
  ppa h := ⟨h.sound, h.debs, h.snaps⟩

theorem triple_recordDebs {debs : Finset String} :
    Triple (fun s => RecordSound host s ∧ ∀ deb ∈ debs, Present s.history deb) (recordDebs debs)
      (fun _ => RecordSound host) (RecordSound host) := by
  rintro s ⟨h, hPresent⟩
  change RecordSound host (Session.after { s with debs := s.debs ∪ debs } (.recordedDebs debs))
  refine ⟨h.sound.concat hPresent, ?_, ?_⟩
  · intro deb
    change deb ∈ s.debs ∪ debs ↔ DebRecorded (s.history ++ [.recordedDebs debs]) deb
    rw [debRecorded_concat, Finset.mem_union, h.debs]
    simp
  · intro snap
    change snap ∈ s.snaps ↔ SnapRecorded (s.history ++ [.recordedDebs debs]) snap
    rw [snapRecorded_concat, h.snaps]
    simp

theorem triple_recordSnap {snap : String} :
    Triple (fun s => RecordSound host s ∧ SnapPresent host s.history snap) (recordSnap snap)
      (fun _ => RecordSound host) (RecordSound host) := by
  rintro s ⟨h, hCompleted⟩
  change RecordSound host (Session.after { s with snaps := insert snap s.snaps } (.recordedSnap snap))
  refine ⟨h.sound.concat hCompleted, ?_, ?_⟩
  · intro deb
    change deb ∈ s.debs ↔ DebRecorded (s.history ++ [.recordedSnap snap]) deb
    rw [debRecorded_concat, h.debs]
    simp
  · intro other
    change other ∈ insert snap s.snaps ↔ SnapRecorded (s.history ++ [.recordedSnap snap]) other
    rw [snapRecorded_concat, Finset.mem_insert, h.snaps, or_comm, Event.recordedSnap.injEq,
      eq_comm (a := snap)]

/-- Debs that are not on record are recorded when they are there. -/
theorem triple_provideDebs {unchecked : Finset String} :
    Triple (fun s => RecordSound host s ∧ ∀ deb ∈ unchecked, deb ∉ s.debs) (provideDebs host unchecked)
      (fun _ => RecordSound host) (RecordSound host) := by
  have hSound := recordSound_stable host
  have hStable : Stable host fun s => RecordSound host s ∧ ∀ deb ∈ unchecked, deb ∉ s.debs :=
    ⟨fun he h => ⟨hSound.after he h.1, h.2⟩, fun h => ⟨hSound.ppa h.1, h.2⟩⟩
  have hCheck : Triple (fun s => RecordSound host s ∧ ∀ deb ∈ unchecked, deb ∉ s.debs)
      (checkCall host (.dpkgStatus unchecked))
      (fun _ s => RecordSound host s ∧ ∀ deb ∈ unchecked, Present s.history deb)
      (fun s => RecordSound host s ∧ ∀ deb ∈ unchecked, deb ∉ s.debs) := by
    refine triple_checkCall ?_ fun s ended h => hStable.after trivial h
    intro s out h
    refine ⟨hSound.after trivial h.1, fun deb hDeb => ⟨unchecked, out, hDeb, .inl ?_⟩⟩
    exact List.mem_append_right _ (List.mem_singleton_self _)
  refine triple_bind (triple_tryCatch hCheck fun e => ?_) fun _ => triple_recordDebs
  · split
    · refine triple_after_keeps (keeps_getPpa hStable) (fun s h => h.1) fun _ => ?_
      have hInstall : ∀ s ended, RecordSound host s ∧ (∀ deb ∈ unchecked, deb ∉ s.debs) →
          RecordSound host (s.after (.ran (.aptInstall unchecked) ended)) := by
        rintro s ended ⟨h, hNew⟩
        refine h.after (.inr fun deb hDeb hRecorded => hNew deb hDeb ((h.debs deb).mpr hRecorded)) ?_ ?_
        · exact fun _ hEq => by cases hEq
        · exact fun _ hEq => by cases hEq
      refine triple_checkCall ?_ hInstall
      intro s out h
      refine ⟨hInstall s _ h, fun deb hDeb => ⟨unchecked, out, hDeb, .inr ?_⟩⟩
      exact List.mem_append_right _ (List.mem_singleton_self _)
    · exact triple_throw e fun s h => h.1

theorem triple_installDebs (debs : List String) :
    Triple (RecordSound host) (installDebs host debs) (fun _ => RecordSound host) (RecordSound host) := by
  refine triple_get_bind_eq fun s hSound => ?_
  have hPre : ∀ t, t = s → RecordSound host t := by
    rintro t rfl
    exact hSound
  split
  · exact triple_pure () hPre
  · split
    · split
      · exact triple_pure () hPre
      · rintro t rfl
        exact triple_provideDebs t ⟨hSound, fun deb hDeb => (Finset.mem_sdiff.mp hDeb).2⟩
    · rintro t rfl
      exact (recordSound_stable host).after trivial hSound

/-- Sound, and waiting for a change since this point in the history. -/
def Since (host : Host) (history : History) (s : Session) : Prop :=
  RecordSound host s ∧ ∃ waited, s.history = history ++ waited ∧ ∀ e ∈ waited, OfWait e

theorem Since.after {history : History} (h : Since host history s) (he : OfWait e) :
    Since host history (s.after e) := by
  obtain ⟨hSound, waited, hHistory, hWait⟩ := h
  refine ⟨(recordSound_stable host).after he.harmless hSound, waited ++ [e], by simp [Session.after, hHistory], ?_⟩
  intro other hOther
  rw [List.mem_append, List.mem_singleton] at hOther
  cases hOther with
  | inl hEarlier => exact hWait other hEarlier
  | inr hNew => exact hNew ▸ he

/-- A wait that ends without an exception was for a change that is done, or saw an empty list. -/
theorem triple_waitForChange (history : History) (change : String) (polls : ℕ) :
    Triple (Since host history) (waitForChange host change polls)
      (fun ended s => RecordSound host s ∧ (ended = true →
        ∃ waited, s.history = history ++ waited ∧ (Waited change waited ∨ Emptied waited)))
      (RecordSound host) := by
  induction polls with
  | zero => exact triple_pure false fun s h => ⟨h.1, by simp⟩
  | succ polls ih =>
      have hPoll : Triple (Since host history) (checkOutput host .snapChanges)
          (fun output s => Since host history s ∧ (output = "" ∨ shows change "Done" output = true →
            ∃ waited, s.history = history ++ waited ∧ (Waited change waited ∨ Emptied waited)))
          (RecordSound host) := by
        have hPolled : ∀ s ended, Since host history s → Since host history (s.after (.ran .snapChanges ended)) :=
          fun s ended h => h.after trivial
        refine triple_checkOutput ?_ fun s ended h => (hPolled s ended h).1
        intro s output h
        refine ⟨hPolled s _ h, fun hOutput => ?_⟩
        obtain ⟨-, earlier, hHistory, hWait⟩ := h
        refine ⟨earlier ++ [.ran .snapChanges (.exited 0 output)], by simp [Session.after, hHistory], ?_⟩
        cases hOutput with
        | inl hEmpty =>
            subst hEmpty
            exact .inr ⟨earlier, rfl, hWait⟩
        | inr hDone => exact .inl (.inr ⟨earlier, output, rfl, hDone⟩)
      refine triple_bind hPoll fun output => ?_
      split
      · exact triple_pure true fun s h => ⟨h.1.1, fun _ => h.2 (.inl ‹_›)⟩
      · split
        · exact triple_pure true fun s h => ⟨h.1.1, fun _ => h.2 (.inr ‹_›)⟩
        · split
          · have hTasks : Keeps (RecordSound host) (checkOutput host (.snapTasks change)) :=
              keeps_checkOutput fun _ _ => (recordSound_stable host).after trivial
            intro s h
            exact triple_after_keeps hTasks (fun _ h => h) (fun tasks => triple_throw _ fun _ h => h) s h.1.1
          · have hHappen : ∀ e, OfWait e → Keeps (Since host history) (happen e) :=
              fun e he => keeps_modify fun s h => h.after he
            have hStop : ∀ s, Since host history s → RecordSound host s := fun s h => h.1
            intro s h
            refine triple_after_keeps (hHappen (.printed (doing output)) trivial) hStop (fun _ => ?_) s h.1
            exact triple_after_keeps (hHappen (.slept 10) trivial) hStop fun _ => ih

/-- A snap that is not on record is installed when the call says that the wait ended. -/
theorem triple_snapInstall (polls : ℕ) (snap channel : String) (classic : Bool) :
    Triple (fun s => RecordSound host s ∧ snap ∉ s.snaps) (snapInstall host polls snap channel classic)
      (fun ended s => RecordSound host s ∧ (ended = true → Installed s.history snap ∨ Unlisted s.history snap))
      (RecordSound host) := by
  have hInstall : ∀ s ended, RecordSound host s ∧ snap ∉ s.snaps →
      RecordSound host (s.after (.ran (.snapInstall snap channel classic) ended)) := by
    rintro s ended ⟨h, hNew⟩
    refine h.after (fun hRecorded => hNew ((h.snaps snap).mpr hRecorded)) ?_ ?_
    · exact fun _ hEq => by cases hEq
    · exact fun _ hEq => by cases hEq
  have hStart : Triple (fun s => RecordSound host s ∧ snap ∉ s.snaps)
      (checkOutput host (.snapInstall snap channel classic))
      (fun out s => RecordSound host s ∧ ∃ before,
        s.history = before ++ [.ran (.snapInstall snap channel classic) (.exited 0 out)])
      (RecordSound host) :=
    triple_checkOutput (fun s out h => ⟨hInstall s _ h, s.history, rfl⟩) hInstall
  refine triple_bind hStart fun out => ?_
  dsimp only
  split
  · refine triple_pure true ?_
    rintro s ⟨h, before, hHistory⟩
    exact ⟨h, fun _ => .inl ⟨before, channel, classic, out, [], by simp [hHistory], .inl ⟨‹_›, rfl⟩⟩⟩
  · rintro s ⟨h, before, hHistory⟩
    refine ((triple_waitForChange s.history (strip out) polls).mono ?_ fun _ h => h) s
      ⟨h, [], by simp, fun _ hNone => by cases hNone⟩
    rintro ended t ⟨hEnd, hWaited⟩
    refine ⟨hEnd, fun hEnded => ?_⟩
    obtain ⟨waited, hLast, hOutcome⟩ := hWaited hEnded
    refine hOutcome.imp (fun hDone => ?_) fun hEmptied => ?_
    · exact ⟨before, channel, classic, out, waited, by rw [hLast, hHistory], hDone⟩
    · exact ⟨before, channel, classic, out, waited, [], by rw [hLast, hHistory, List.append_nil], hEmptied⟩

theorem Unlisted.append {history : History} {snap : String} (h : Unlisted history snap) (more : History) :
    Unlisted (history ++ more) snap := by
  obtain ⟨before, channel, classic, out, waited, after, rfl, hEmptied⟩ := h
  exact ⟨before, channel, classic, out, waited, after ++ more, by simp, hEmptied⟩

theorem Completed.append {history : History} {snap : String} (h : Completed host history snap)
    (more : History) : Completed host (history ++ more) snap := by
  obtain ⟨before, after, rfl, hInstalled, hScript⟩ := h
  refine ⟨before, after ++ more, by simp, hInstalled, fun hWhich => ?_⟩
  obtain ⟨out, rest, rfl⟩ := hScript hWhich
  exact ⟨out, rest ++ more, rfl⟩

theorem SnapPresent.append {history : History} {snap : String} (h : SnapPresent host history snap)
    (more : History) : SnapPresent host (history ++ more) snap := fun hListed =>
  (h fun hUnlisted => hListed (hUnlisted.append more)).append more

/-- The set-up completes an installation. -/
theorem triple_setUp (snap : String) :
    Triple (fun s => RecordSound host s ∧ (Installed s.history snap ∨ Unlisted s.history snap)) (setUp host snap)
      (fun _ s => RecordSound host s ∧ SnapPresent host s.history snap) (RecordSound host) := by
  have hSound := recordSound_stable host
  refine triple_get_bind_eq fun s h => ?_
  split
  · rename_i hScript
    refine triple_checkCall ?_ ?_
    · rintro t out rfl
      refine ⟨hSound.after trivial h.1, fun hListed => ?_⟩
      have hInstalled := h.2.resolve_right fun hUnlisted => hListed (hUnlisted.append [_])
      exact ⟨t.history, _, rfl, hInstalled, fun _ => ⟨out, [], rfl⟩⟩
    · rintro t ended rfl
      exact hSound.after trivial h.1
  · rename_i hNone
    refine triple_pure () ?_
    rintro t rfl
    refine ⟨h.1, fun hListed => ⟨t.history, [], by simp, h.2.resolve_right hListed, ?_⟩⟩
    exact fun hScript => absurd hScript hNone

theorem triple_provideSnap (polls : ℕ) (snap channel : String) (classic : Bool) :
    Triple (fun s => RecordSound host s ∧ snap ∉ s.snaps) (provideSnap host polls snap channel classic)
      (fun _ => RecordSound host) (RecordSound host) := by
  have hSound := recordSound_stable host
  have hStable : Stable host fun s => RecordSound host s ∧ SnapPresent host s.history snap :=
    ⟨fun he h => ⟨hSound.after he h.1, h.2.append [_]⟩, fun h => ⟨hSound.ppa h.1, h.2⟩⟩
  refine triple_bind (triple_snapInstall polls snap channel classic) fun ended => ?_
  split
  · rename_i hEnded
    intro s h
    refine triple_bind (triple_setUp snap) (fun _ => ?_) s ⟨h.1, h.2 hEnded⟩
    refine triple_after_keeps (keeps_connectSnap hStable snap) (fun s h => h.1) fun _ => ?_
    exact triple_bind triple_recordSnap fun _ => triple_pure true fun _ h => h
  · exact triple_pure false fun s h => h.1

theorem triple_installSnap (polls : ℕ) (r : Request) :
    Triple (RecordSound host) (installSnap host polls r) (fun _ => RecordSound host) (RecordSound host) := by
  refine triple_get_bind_eq fun s hSound => ?_
  have hPre : ∀ t, t = s → RecordSound host t := by
    rintro t rfl
    exact hSound
  cases r.snap with
  | none => exact triple_pure true hPre
  | some snap =>
      dsimp only
      split
      · exact triple_pure true hPre
      · rename_i hNew
        rintro t rfl
        rw [not_or] at hNew
        exact triple_provideSnap polls snap r.channel r.classic t ⟨hSound, hNew.2⟩

/-- A call leaves the record sound, whichever way it ends or waits. -/
theorem triple_install (polls : ℕ) (r : Request) :
    Triple (RecordSound host) (install host polls r) (fun _ => RecordSound host) (RecordSound host) := by
  refine triple_bind (triple_installDebs r.debs) fun _ => ?_
  refine triple_bind (triple_installSnap polls r) fun ended => ?_
  split
  · refine triple_after_keeps (keeps_installPips (recordSound_stable host) r.pipPkgs) (fun _ h => h) fun _ => ?_
    exact triple_pure true fun _ h => h
  · exact triple_pure false fun _ h => h

end Sound

end MirCi.PytestPlugin.Deps
