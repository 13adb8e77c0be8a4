import MirCi.PytestPlugin.SnapChanges

/-! How the wait for a change of a snap ends, and when that is the right end. -/
namespace MirCi.PytestPlugin.Deps

open Python Semantics Effect

/-- The statuses in which a change stays. -/
def finalStatuses : List String := ["Done", "Undone", "Hold", "Error"]

/-- The first table that shows a final status of the change. -/
structure FirstFinal (id : ChangeId) (tables : ℕ → Table) (n : ℕ) (status : String) : Prop where
  shown : (tables n).status id = some status
  final : status ∈ finalStatuses
  first : ∀ k < n, ∀ earlier, (tables k).status id = some earlier → earlier ∉ finalStatuses

/-- By the results for so many polls at most: the wait goes on until this table, returns there if the
change is done, and raises there if it is not. -/
structure StopsRightly (results : ℕ → EStateM.Result Exc Session Bool) (n : ℕ) (status : String) :
    Prop where
  waits : ∀ polls ≤ n, value (results polls) = some false
  returns : status = "Done" → value (results (n + 1)) = some true
  raises : status ≠ "Done" → ∃ e, raised (results (n + 1)) = some e

section Wait

variable {base : Host} {start s : Session} {id : ChangeId} {tables : ℕ → Table} {k n : ℕ}

variable (base id tables) in
/-- While no table ends the wait, polls go by. -/
theorem waitForChange_goesOn (left : ℕ) (h : ∀ j < n, (tables (k + j)).verdict id = .goesOn)
    (hPolled : Polled start k s) : ∃ t, Polled start (k + n) t ∧
      (waitForChange (changesHost base start id tables) id.text (n + left)).run s =
        (waitForChange (changesHost base start id tables) id.text left).run t := by
  induction n generalizing k s with
  | zero =>
      rw [Nat.zero_add]
      exact ⟨s, hPolled, rfl⟩
  | succ n ih =>
      have hPoll := waitForChange_run base id tables hPolled (n + left)
      have hFirst : (tables k).verdict id = .goesOn := h 0 (by omega)
      rw [hFirst] at hPoll
      obtain ⟨t, hNext, hRun⟩ := hPoll
      have hRest : ∀ j < n, (tables (k + 1 + j)).verdict id = .goesOn := by
        intro j hj
        have hLater := h (j + 1) (by omega)
        rwa [← Nat.add_assoc, Nat.add_right_comm] at hLater
      obtain ⟨u, hPolledLast, hLast⟩ := ih hRest hNext
      refine ⟨u, ?_, ?_⟩
      · rwa [Nat.add_assoc, Nat.add_comm 1 n] at hPolledLast
      · rw [Nat.add_right_comm, hRun, hLast]

variable {snap channel : String} {classic : Bool}

/-- What the installation gives after so many polls at most. -/
def results (base : Host) (start : Session) (id : ChangeId) (tables : ℕ → Table) (snap channel : String)
    (classic : Bool) (polls : ℕ) : EStateM.Result Exc Session Bool :=
  (snapInstall (changesHost base start id tables) polls snap channel classic).run start

/-- The session when the change is there. -/
def installed (start : Session) (id : ChangeId) (snap channel : String) (classic : Bool) : Session :=
  start.after (.ran (.snapInstall snap channel classic) (.exited 0 (id.text ++ "\n")))

theorem results_eq (left : ℕ) : results base start id tables snap channel classic left =
    (waitForChange (changesHost base start id tables) id.text left).run
      (installed start id snap channel classic) := by
  have hEnds : (changesHost base start id tables).ends start.history (.snapInstall snap channel classic) =
      .exited 0 (id.text ++ "\n") := rfl
  rw [results, snapInstall, EStateM.run_bind, checkOutput_run_of_exited hEnds, if_pos rfl]
  dsimp only
  rw [strip_change, if_neg id.nonempty]
  rfl

variable (base start snap channel classic) in
/-- While no table ends the wait, the rest of it is left. -/
theorem results_goesOn (left : ℕ) (h : ∀ k < n, (tables k).verdict id = .goesOn) :
    ∃ t, Polled start n t ∧ results base start id tables snap channel classic (n + left) =
      (waitForChange (changesHost base start id tables) id.text left).run t := by
  have hStart : Polled start 0 (installed start id snap channel classic) := by
    simp [Polled, polls, installed, Session.after]
  have hFirst : ∀ j < n, (tables (0 + j)).verdict id = .goesOn := by
    intro j hj
    rw [Nat.zero_add]
    exact h j hj
  obtain ⟨t, hPolled, hRun⟩ := waitForChange_goesOn base id tables left hFirst hStart
  rw [Nat.zero_add] at hPolled
  exact ⟨t, hPolled, (results_eq _).trans hRun⟩

variable (base start snap channel classic) in
/-- The first table that ends the wait decides how. -/
theorem results_verdict (left : ℕ) (h : ∀ k < n, (tables k).verdict id = .goesOn) :
    match (tables n).verdict id with
    | .returns => value (results base start id tables snap channel classic (n + (left + 1))) = some true
    | .raises => ∃ e, raised (results base start id tables snap channel classic (n + (left + 1))) = some e
    | .goesOn => True := by
  obtain ⟨t, hPolled, hRun⟩ := results_goesOn base start snap channel classic (left + 1) h
  rw [hRun]
  have hPoll := waitForChange_run base id tables hPolled left
  cases hVerdict : (tables n).verdict id with
  | returns =>
      rw [hVerdict] at hPoll
      obtain ⟨u, hEnd⟩ := hPoll
      dsimp only
      rw [hEnd]
      rfl
  | raises =>
      rw [hVerdict] at hPoll
      obtain ⟨e, u, hEnd⟩ := hPoll
      exact ⟨e, by rw [hEnd]; rfl⟩
  | goesOn => trivial

/-- The wait goes on exactly while no table ends it. -/
theorem waiting_iff : value (results base start id tables snap channel classic n) = some false ↔
    ∀ k < n, (tables k).verdict id = .goesOn := by
  constructor
  · intro hWaiting
    by_contra hNot
    push Not at hNot
    obtain ⟨hLess, hEnds⟩ := Nat.find_spec hNot
    have hBefore : ∀ k < Nat.find hNot, (tables k).verdict id = .goesOn := by
      intro k hk
      by_contra hVerdict
      exact Nat.find_min hNot hk ⟨by omega, hVerdict⟩
    obtain ⟨left, hLeft⟩ : ∃ left, n = Nat.find hNot + (left + 1) := ⟨n - Nat.find hNot - 1, by omega⟩
    have hEnd := results_verdict base start snap channel classic left hBefore
    rw [← hLeft] at hEnd
    cases hVerdict : (tables (Nat.find hNot)).verdict id with
    | returns =>
        rw [hVerdict] at hEnd
        cases hEnd.symm.trans hWaiting
    | raises =>
        rw [hVerdict] at hEnd
        obtain ⟨e, hRaised⟩ := hEnd
        cases (value_of_raised hRaised).symm.trans hWaiting
    | goesOn => exact hEnds hVerdict
  · intro hGoesOn
    obtain ⟨t, -, hRun⟩ := results_goesOn base start snap channel classic 0 hGoesOn
    rw [Nat.add_zero] at hRun
    rw [hRun]
    rfl

/-- A table that does not show a final status of the change ends the wait only if it is empty. -/
theorem verdict_of_not_final {table : Table}
    (h : ∀ status, table.status id = some status → status ∉ finalStatuses) :
    table.verdict id = .goesOn ↔ table.rows ≠ [] := by
  have hDone : table.status id ≠ some "Done" := fun hStatus => h "Done" hStatus (by simp [finalStatuses])
  have hError : table.status id ≠ some "Error" := fun hStatus => h "Error" hStatus (by simp [finalStatuses])
  unfold Table.verdict
  rw [if_neg hDone, if_neg hError]
  split
  · simp [*]
  · simp [*]

/-- What the table that shows a status makes of the wait. -/
theorem verdict_of_status {table : Table} {status : String} (h : table.status id = some status) :
    table.verdict id =
      if status = "Done" then .returns else if status = "Error" then .raises else .goesOn := by
  have hRows : table.rows ≠ [] := by
    intro hRows
    simp [Table.status, hRows] at h
  simp [Table.verdict, hRows, h]

/-- The wait ends rightly just when the change ends in a status that the loop looks for, and no list
before was empty. -/
theorem change_verdict_iff (base : Host) (start : Session) (snap channel : String) (classic : Bool)
    {status : String} (h : FirstFinal id tables n status) :
    StopsRightly (results base start id tables snap channel classic) n status ↔
      (status = "Done" ∨ status = "Error") ∧ ∀ k < n, (tables k).rows ≠ [] := by
  have hVerdict := verdict_of_status h.shown
  constructor
  · intro hStops
    have hGoesOn := waiting_iff.mp (hStops.waits n le_rfl)
    refine ⟨?_, fun k hk => (verdict_of_not_final (h.first k hk)).mp (hGoesOn k hk)⟩
    by_contra hOther
    rw [not_or] at hOther
    obtain ⟨e, hRaised⟩ := hStops.raises hOther.1
    have hWaiting : value (results base start id tables snap channel classic (n + 1)) = some false := by
      rw [waiting_iff]
      intro k hk
      rcases Nat.lt_succ_iff_lt_or_eq.mp hk with hk | rfl
      · exact hGoesOn k hk
      · rw [hVerdict, if_neg hOther.1, if_neg hOther.2]
    cases (value_of_raised hRaised).symm.trans hWaiting
  · rintro ⟨hStatus, hRows⟩
    have hGoesOn : ∀ k < n, (tables k).verdict id = .goesOn :=
      fun k hk => (verdict_of_not_final (h.first k hk)).mpr (hRows k hk)
    have hEnd := results_verdict base start snap channel classic 0 hGoesOn
    rw [hVerdict] at hEnd
    refine ⟨?_, ?_, ?_⟩
    · intro polls hPolls
      exact waiting_iff.mpr fun k hk => hGoesOn k (by omega)
    · rintro rfl
      exact hEnd
    · intro hNot
      obtain rfl := hStatus.resolve_left hNot
      exact hEnd

end Wait

section Instance

def quietHost : Host where
  ends _ _ := .exited 0 ""
  which _ _ := true
  imports _ _ := .found
  environ _ := none
  codename := "noble"

def seven : ChangeId := ⟨"7", by simp, by simp⟩

/-- The change in a status, next to another one whose id begins as its own and that failed. -/
def tableOf (status : String) (h : Word status) : Table where
  heading := "ID   Status  Spawn               Ready               Summary"
  rows :=
    [{ id := ⟨"70", by simp, by simp⟩, status := "Error"
       others := "today at 10:00 UTC  -  Install 7 Done"
       word := by simp [Word, isSpace], oneLine := by simp },
     { id := seven, status, others := "today at 10:05 UTC  -  Install 70 Error", word := h
       oneLine := by simp }]
  headed := by simp
  oneLine := by simp
  distinct := by simp [seven]

/-- A change that is being made, and is made at the next poll. -/
def making (k : ℕ) : Table :=
  if k = 0 then tableOf "Doing" (by simp [Word, isSpace]) else tableOf "Done" (by simp [Word, isSpace])

theorem change_verdict_done :
    StopsRightly (results quietHost {} seven making "mir-kiosk" "latest/stable" false) 1 "Done" := by
  have hFirst : FirstFinal seven making 1 "Done" := by
    refine ⟨by decide +kernel, by decide, ?_⟩
    intro k hk earlier hEarlier
    obtain rfl : k = 0 := by omega
    have hDoing : (making 0).status seven = some "Doing" := by decide +kernel
    obtain rfl := Option.some.inj (hDoing.symm.trans hEarlier)
    decide
  refine (change_verdict_iff quietHost {} "mir-kiosk" "latest/stable" false hFirst).mpr ⟨.inl rfl, ?_⟩
  intro k hk
  obtain rfl : k = 0 := by omega
  exact List.cons_ne_nil _ _

/-- The wait for a change that was undone does not end. -/
theorem change_undone_waits : ∃ tables : ℕ → Table, FirstFinal seven tables 0 "Undone" ∧
    ¬StopsRightly (results quietHost {} seven tables "mir-kiosk" "latest/stable" false) 0 "Undone" := by
  let undone : Table := tableOf "Undone" (by simp [Word, isSpace])
  have hStatus : undone.status seven = some "Undone" := by decide +kernel
  refine ⟨fun _ => undone, ⟨hStatus, by decide, by omega⟩, ?_⟩
  intro hStops
  obtain ⟨e, hRaised⟩ := hStops.raises (by decide)
  have hWaiting : value (results quietHost {} seven (fun _ => undone) "mir-kiosk" "latest/stable" false 1) =
      some false := by
    rw [waiting_iff]
    intro k _
    rw [verdict_of_status hStatus]
    rfl
  cases (value_of_raised hRaised).symm.trans hWaiting

end Instance

end MirCi.PytestPlugin.Deps
