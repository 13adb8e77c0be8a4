import Mathlib.Tactic

/-! Python's dictionaries: insertion order is kept, a key occurs once, and
assigning to a key that is there leaves its place alone. -/
namespace Python

/-- A dictionary, oldest key first. That no key occurs twice is part of the value, so no operation has to
check it again. -/
@[ext] structure Dict (κ α : Type*) where
  items : List (κ × α)
  nodup : (items.map Prod.fst).Nodup
  deriving DecidableEq

namespace Dict

variable {κ α β : Type*}

def empty : Dict κ α := ⟨[], List.nodup_nil⟩

def keys (d : Dict κ α) : List κ := d.items.map Prod.fst

def values (d : Dict κ α) : List α := d.items.map Prod.snd

/-- Another value under every key. -/
def mapValues (d : Dict κ α) (f : κ → α → β) : Dict κ β :=
  ⟨d.items.map fun item => (item.1, f item.1 item.2), by
    simpa [List.map_map, Function.comp_def] using d.nodup⟩

@[simp] theorem keys_empty : (empty : Dict κ α).keys = [] := rfl

@[simp] theorem keys_mapValues (d : Dict κ α) (f : κ → α → β) :
    (d.mapValues f).keys = d.keys := by
  simp [keys, mapValues, Function.comp_def]

variable [DecidableEq κ]

/-- `d.get(k)`. -/
def get? (d : Dict κ α) (k : κ) : Option α := d.items.lookup k

/-- `d[k] = v`. The value of a key that is there is replaced in its place; a new key comes last. -/
def set (d : Dict κ α) (k : κ) (v : α) : Dict κ α :=
  if h : k ∈ d.keys then d.mapValues fun key old => if key = k then v else old
  else ⟨d.items ++ [(k, v)], by
    rw [List.map_append]
    exact d.nodup.append (List.nodup_singleton _) (by simpa [keys] using h)⟩

theorem lookup_eq_some {items : List (κ × α)} (hNodup : (items.map Prod.fst).Nodup)
    {k : κ} {v : α} : items.lookup k = some v ↔ (k, v) ∈ items := by
  induction items with
  | nil => simp
  | cons item rest ih =>
      obtain ⟨key, value⟩ := item
      rw [List.map_cons, List.nodup_cons] at hNodup
      obtain ⟨hKey, hRest⟩ := hNodup
      rw [List.lookup_cons]
      by_cases hEq : k = key
      · subst hEq
        have hAbsent : (k, v) ∉ rest := fun hMem => hKey (List.mem_map.mpr ⟨_, hMem, rfl⟩)
        simp [hAbsent, eq_comm]
      · rw [beq_eq_false_iff_ne.mpr hEq, ih hRest]
        simp [hEq]

/-- Looking up finds an item just when it is there: no other item can hide it. -/
theorem get?_eq_some {d : Dict κ α} {k : κ} {v : α} : d.get? k = some v ↔ (k, v) ∈ d.items :=
  lookup_eq_some d.nodup

theorem get?_eq_none {d : Dict κ α} {k : κ} : d.get? k = none ↔ k ∉ d.keys := by
  rw [Option.eq_none_iff_forall_ne_some]
  constructor
  · intro h hKey
    obtain ⟨item, hItem, rfl⟩ := List.mem_map.mp hKey
    exact h item.2 (get?_eq_some.mpr hItem)
  · intro h v hGet
    exact h (List.mem_map_of_mem (get?_eq_some.mp hGet))

@[simp] theorem get?_mapValues (d : Dict κ α) (f : κ → α → β) (k : κ) :
    (d.mapValues f).get? k = (d.get? k).map (f k) := by
  cases hGet : d.get? k with
  | none =>
      rw [get?_eq_none] at hGet
      rw [Option.map_none, get?_eq_none, keys_mapValues]
      exact hGet
  | some v =>
      rw [get?_eq_some] at hGet
      rw [Option.map_some, get?_eq_some]
      exact List.mem_map.mpr ⟨(k, v), hGet, rfl⟩

theorem keys_set_of_mem {d : Dict κ α} {k : κ} (v : α) (h : k ∈ d.keys) :
    (d.set k v).keys = d.keys := by
  simp [set, h]

theorem items_set_of_notMem {d : Dict κ α} {k : κ} (v : α) (h : k ∉ d.keys) :
    (d.set k v).items = d.items ++ [(k, v)] := by
  simp [set, h]

theorem keys_set_of_notMem {d : Dict κ α} {k : κ} (v : α) (h : k ∉ d.keys) :
    (d.set k v).keys = d.keys ++ [k] := by
  rw [keys, items_set_of_notMem v h, List.map_append]
  rfl

/-- Assigning adds the key and removes none. -/
theorem mem_keys_set {d : Dict κ α} {k key : κ} (v : α) :
    key ∈ (d.set k v).keys ↔ key ∈ d.keys ∨ key = k := by
  by_cases hMem : k ∈ d.keys
  · rw [keys_set_of_mem v hMem]
    constructor
    · intro h
      exact .inl h
    · rintro (h | rfl)
      · exact h
      · exact hMem
  · rw [keys_set_of_notMem v hMem, List.mem_append, List.mem_singleton]

/-- What is read after an assignment. This is all that most proofs need of it. -/
theorem get?_set (d : Dict κ α) (k key : κ) (v : α) :
    (d.set k v).get? key = if key = k then some v else d.get? key := by
  by_cases hMem : k ∈ d.keys
  · have hSet : d.set k v = d.mapValues fun key old => if key = k then v else old := by
      simp [set, hMem]
    rw [hSet, get?_mapValues]
    split
    · rename_i hEq
      subst hEq
      obtain ⟨item, hItem, rfl⟩ := List.mem_map.mp hMem
      rw [get?_eq_some.mpr hItem]
      simp
    · simp
  · rw [get?, items_set_of_notMem v hMem, List.lookup_append]
    change (d.get? key).or _ = _
    split
    · rename_i hEq
      subst hEq
      rw [get?_eq_none.mpr hMem]
      simp
    · rename_i hNe
      simp [List.lookup_cons, beq_eq_false_iff_ne.mpr hNe]

/-- `{k: v for k, v in items}`. -/
def ofItems (items : List (κ × α)) : Dict κ α := items.foldl (fun d item => d.set item.1 item.2) empty

theorem get?_foldl_set (items : List (κ × α)) (d : Dict κ α) (k : κ) :
    (items.foldl (fun d item => d.set item.1 item.2) d).get? k =
      ((ofItems items).get? k).or (d.get? k) := by
  induction items using List.reverseRecOn with
  | nil => rfl
  | append_singleton items item ih =>
      rw [ofItems, List.foldl_append, List.foldl_append, List.foldl_cons, List.foldl_cons,
        List.foldl_nil, List.foldl_nil, get?_set, get?_set, ih]
      split
      · rfl
      · rfl

/-- A later item hides an earlier one of the same key. -/
theorem get?_ofItems_append (items later : List (κ × α)) (k : κ) :
    (ofItems (items ++ later)).get? k = ((ofItems later).get? k).or ((ofItems items).get? k) := by
  rw [ofItems, List.foldl_append, get?_foldl_set]
  rfl

/-- Where the value depends on the key alone, it does not matter which item stays. -/
theorem get?_ofItems_map (names : List κ) (g : κ → α) (k : κ) :
    (ofItems (names.map fun name => (name, g name))).get? k = if k ∈ names then some (g k) else none := by
  induction names using List.reverseRecOn with
  | nil => rfl
  | append_singleton names name ih =>
      have hLast : (ofItems [(name, g name)]).get? k = if k = name then some (g name) else none := by
        rw [ofItems, List.foldl_cons, List.foldl_nil, get?_set]
        rfl
      rw [List.map_append, List.map_singleton, get?_ofItems_append, ih, hLast]
      by_cases hk : k = name
      · subst hk
        simp
      · simp [hk]

/-- What `d` lacks of `e` added to it, as `deepmerge`'s conservative merger does. -/
def merge (d e : Dict κ α) : Dict κ α :=
  e.items.foldl (fun d item => if item.1 ∈ d.keys then d else d.set item.1 item.2) d

theorem get?_foldl_missing (items : List (κ × α)) (d : Dict κ α) (k : κ) :
    (items.foldl (fun d item => if item.1 ∈ d.keys then d else d.set item.1 item.2) d).get? k =
      (d.get? k).or (items.lookup k) := by
  induction items generalizing d with
  | nil => simp
  | cons item rest ih =>
      rw [List.foldl_cons, ih, List.lookup_cons]
      by_cases hKey : item.1 ∈ d.keys
      · rw [if_pos hKey]
        by_cases hk : k = item.1
        · obtain ⟨v, hv⟩ := Option.ne_none_iff_exists'.mp (mt get?_eq_none.mp (not_not.mpr hKey))
          rw [hk, hv]
          rfl
        · rw [beq_eq_false_iff_ne.mpr hk]
      · rw [if_neg hKey, get?_set]
        by_cases hk : k = item.1
        · rw [if_pos hk, beq_iff_eq.mpr hk, hk, get?_eq_none.mpr hKey]
          rfl
        · rw [if_neg hk, beq_eq_false_iff_ne.mpr hk]

/-- What is there stays. -/
theorem get?_merge (d e : Dict κ α) (k : κ) : (d.merge e).get? k = (d.get? k).or (e.get? k) :=
  get?_foldl_missing e.items d k

end Dict

end Python
