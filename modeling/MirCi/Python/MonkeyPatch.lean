import MirCi.Python.Dict

/-! `pytest.MonkeyPatch` on a dictionary: it keeps what was there before each assignment, and puts
it back in the opposite order. -/
namespace Python

variable {κ α : Type*} [DecidableEq κ]

/-- `d.pop(k, None)`. -/
def Dict.erase (d : Dict κ α) (k : κ) : Dict κ α :=
  ⟨d.items.filter fun item => item.1 ≠ k, d.nodup.sublist (List.filter_sublist.map Prod.fst)⟩

namespace MonkeyPatch

/-- The keys assigned to, oldest first, each with its value before if it had one. -/
abbrev Saved (κ α : Type*) := List (κ × Option α)

/-- `m.setitem(d, k, v)`. -/
def setitem (s : Dict κ α × Saved κ α) (item : κ × α) : Dict κ α × Saved κ α :=
  (s.1.set item.1 item.2, s.2 ++ [(item.1, s.1.get? item.1)])

/-- One step of `m.undo()`. -/
def restore (d : Dict κ α) (saved : κ × Option α) : Dict κ α :=
  match saved.2 with
  | some v => d.set saved.1 v
  | none => d.erase saved.1

/-- `m.undo()`. -/
def undo (d : Dict κ α) (saved : Saved κ α) : Dict κ α := saved.reverse.foldl restore d

theorem set_set_of_get? {d : Dict κ α} {k : κ} {old : α} (v : α) (h : d.get? k = some old) :
    (d.set k v).set k old = d := by
  have hMem := Dict.get?_eq_some.mp h
  have hKey : k ∈ d.keys := List.mem_map_of_mem hMem
  have hKey' : k ∈ (d.set k v).keys := by rwa [Dict.keys_set_of_mem v hKey]
  apply Dict.ext
  rw [Dict.set, dif_pos hKey', Dict.set, dif_pos hKey]
  simp only [Dict.mapValues, List.map_map]
  refine (List.map_congr_left fun item hItem => ?_).trans (List.map_id _)
  by_cases hSame : item.1 = k
  · have hOld : item.2 = old := by
      have hHere := Dict.get?_eq_some.mpr hItem
      rw [hSame, h] at hHere
      exact (Option.some.inj hHere).symm
    simp [hSame, ← hOld, Prod.ext_iff]
  · simp [hSame]

theorem erase_set_of_get?_none {d : Dict κ α} {k : κ} (v : α) (h : d.get? k = none) : (d.set k v).erase k = d := by
  have hKey : k ∉ d.keys := Dict.get?_eq_none.mp h
  apply Dict.ext
  change (d.set k v).items.filter (fun item => item.1 ≠ k) = _
  rw [Dict.items_set_of_notMem v hKey]
  have hAll : ∀ item ∈ d.items, decide (item.1 ≠ k) = true := by
    intro item hItem
    refine decide_eq_true fun hSame => hKey ?_
    exact hSame ▸ List.mem_map_of_mem hItem
  rw [List.filter_append, List.filter_eq_self.mpr hAll]
  simp

/-- Even the order of the keys is as before. -/
theorem restore_set (d : Dict κ α) (k : κ) (v : α) : restore (d.set k v) (k, d.get? k) = d := by
  cases h : d.get? k with
  | some old => exact set_set_of_get? v h
  | none => exact erase_set_of_get?_none v h

/-- Whatever was assigned, in whatever order, the dictionary is as it was. -/
theorem undo_setitems (d : Dict κ α) (items : List (κ × α)) :
    undo (items.foldl setitem (d, [])).1 (items.foldl setitem (d, [])).2 = d := by
  induction items using List.reverseRecOn with
  | nil => rfl
  | append_singleton items item ih =>
      rw [List.foldl_append, List.foldl_cons, List.foldl_nil, setitem, undo, List.reverse_append,
        List.reverse_singleton, List.singleton_append, List.foldl_cons, restore_set]
      exact ih

theorem setitems_fst (items : List (κ × α)) (s : Dict κ α × Saved κ α) :
    (items.foldl setitem s).1 = items.foldl (fun d item => d.set item.1 item.2) s.1 := by
  induction items generalizing s with
  | nil => rfl
  | cons item items ih => rw [List.foldl_cons, ih, setitem, List.foldl_cons]

end MonkeyPatch

end Python
