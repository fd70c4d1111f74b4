import Mathlib.Data.List.AList

/-! # Finite tables

Hash maps are association lists with distinct keys.  Each operation of a table is described
by what a lookup finds afterwards, and nothing else about the list is used.
-/

namespace MpcNetwork

open List

abbrev Table (κ ν : Type) := AList fun _ : κ => ν

namespace Table

variable {κ ν : Type} {k : κ} {f : ν → ν}

/-- The entries of a table after each was given a new value or dropped. -/
private def revised (f : κ → ν → Option ν) (entries : List (Sigma fun _ : κ => ν)) :
    List (Sigma fun _ : κ => ν) :=
  entries.filterMap fun e => (f e.1 e.2).map fun v => ⟨e.1, v⟩

private theorem revised_dropped {f : κ → ν → Option ν} (dropped : f k v = none)
    (entries : List (Sigma fun _ : κ => ν)) : revised f (⟨k, v⟩ :: entries) = revised f entries := by
  simp [revised, dropped]

private theorem revised_kept {f : κ → ν → Option ν} (kept : f k v = some w)
    (entries : List (Sigma fun _ : κ => ν)) :
    revised f (⟨k, v⟩ :: entries) = ⟨k, w⟩ :: revised f entries := by
  simp [revised, kept]

private theorem keys_revised (f : κ → ν → Option ν) (entries : List (Sigma fun _ : κ => ν)) :
    (revised f entries).keys.Sublist entries.keys := by
  induction entries with
  | nil => exact .slnil
  | cons e entries ih =>
    obtain ⟨k, v⟩ := e
    cases kept : f k v with
    | none =>
      rw [revised_dropped kept, keys_cons]
      exact ih.cons k
    | some w =>
      rw [revised_kept kept, keys_cons, keys_cons]
      exact ih.cons_cons k

/-- Go once over all entries; each keeps a new value or is dropped. -/
def revise (t : Table κ ν) (f : κ → ν → Option ν) : Table κ ν where
  entries := revised f t.entries
  nodupKeys := (keys_revised f t.entries).nodup t.nodupKeys

private theorem keys_mapped {μ : Type} (f : ν → μ) (entries : List (Sigma fun _ : κ => ν)) :
    (entries.map fun e => (⟨e.1, f e.2⟩ : Sigma fun _ : κ => μ)).keys = entries.keys := by
  simp [keys]

def mapValues {μ : Type} (t : Table κ ν) (f : ν → μ) : Table κ μ where
  entries := t.entries.map fun e => ⟨e.1, f e.2⟩
  nodupKeys := by
    rw [List.NodupKeys, keys_mapped]
    exact t.nodupKeys

variable [DecidableEq κ]

theorem lookup_mapValues {μ : Type} (t : Table κ ν) (f : ν → μ) (a : κ) :
    (t.mapValues f).lookup a = Option.map f (t.lookup a) := by
  obtain ⟨entries, distinct⟩ := t
  change (entries.map fun e => (⟨e.1, f e.2⟩ : Sigma fun _ : κ => μ)).dlookup a =
    Option.map f (entries.dlookup a)
  induction entries with
  | nil => rfl
  | cons e entries ih =>
    obtain ⟨k, v⟩ := e
    by_cases same : a = k
    · subst same
      simp
    · rw [map_cons, dlookup_cons_ne _ _ same, dlookup_cons_ne _ _ same]
      exact ih (nodupKeys_cons.mp distinct).2

theorem lookup_insert_eq (t : Table κ ν) (k a : κ) (v : ν) :
    (t.insert k v).lookup a = if a = k then some v else t.lookup a := by
  split
  · rename_i same
    subst same
    exact AList.lookup_insert t
  · rename_i other
    exact AList.lookup_insert_ne other

theorem lookup_erase_eq (t : Table κ ν) (k a : κ) :
    (t.erase k).lookup a = if a = k then none else t.lookup a := by
  split
  · rename_i same
    subst same
    exact AList.lookup_erase a t
  · rename_i other
    exact AList.lookup_erase_ne other

/-- Change the value stored under a key, if there is one. -/
def modify (t : Table κ ν) (k : κ) (f : ν → ν) : Table κ ν :=
  match t.lookup k with
  | some v => t.insert k (f v)
  | none => t

theorem lookup_modify (t : Table κ ν) (k a : κ) (f : ν → ν) :
    (t.modify k f).lookup a = if a = k then (t.lookup a).map f else t.lookup a := by
  unfold modify
  split
  · rename_i v found
    rw [lookup_insert_eq]
    split
    · rename_i same
      rw [same, found, Option.map_some]
    · rfl
  · rename_i absent
    split
    · rename_i same
      rw [same, absent, Option.map_none]
    · rfl

def modifyAll (t : Table κ ν) (ks : List κ) (f : ν → ν) : Table κ ν :=
  ks.foldl (fun t k => t.modify k f) t

/-- A key that occurs twice is changed twice, which an idempotent change does not show. -/
theorem lookup_modifyAll (idempotent : ∀ v, f (f v) = f v) (t : Table κ ν) (ks : List κ) (a : κ) :
    (t.modifyAll ks f).lookup a = if a ∈ ks then (t.lookup a).map f else t.lookup a := by
  induction ks generalizing t with
  | nil => simp [modifyAll]
  | cons k ks ih =>
    change ((t.modify k f).modifyAll ks f).lookup a = _
    rw [ih, lookup_modify]
    by_cases same : a = k
    · cases found : t.lookup a <;> simp [same, idempotent]
    · simp [same]

def eraseAll (t : Table κ ν) (ks : List κ) : Table κ ν :=
  ks.foldl (fun t k => t.erase k) t

theorem lookup_eraseAll (t : Table κ ν) (ks : List κ) (a : κ) :
    (t.eraseAll ks).lookup a = if a ∈ ks then none else t.lookup a := by
  induction ks generalizing t with
  | nil => simp [eraseAll]
  | cons k ks ih =>
    change (eraseAll (t.erase k) ks).lookup a = _
    rw [ih, lookup_erase_eq]
    by_cases same : a = k <;> simp [same]

theorem lookup_foldl_insert {α : Type} (key : α → κ) (value : α → ν) (xs : List α) (t : Table κ ν)
    (a : κ) :
    (xs.foldl (fun t x => t.insert (key x) (value x)) t).lookup a =
      ((xs.reverse.find? fun x => key x = a).map value).or (t.lookup a) := by
  induction xs generalizing t with
  | nil => rfl
  | cons x xs ih =>
    rw [foldl_cons, ih, lookup_insert_eq, reverse_cons, find?_append]
    cases later : xs.reverse.find? fun x => key x = a with
    | some y => simp
    | none =>
      by_cases same : a = key x
      · simp [same]
      · simp [same, Ne.symm same]

theorem lookup_revise (t : Table κ ν) (f : κ → ν → Option ν) (a : κ) :
    (t.revise f).lookup a = Option.bind (α := ν) (t.lookup a) (f a) := by
  obtain ⟨entries, distinct⟩ := t
  change (revised f entries).dlookup a = Option.bind (α := ν) (entries.dlookup a) (f a)
  induction entries with
  | nil => rfl
  | cons e entries ih =>
    obtain ⟨k, v⟩ := e
    have rest := ih (nodupKeys_cons.mp distinct).2
    have fresh : k ∉ entries.keys := (nodupKeys_cons.mp distinct).1
    by_cases same : a = k
    · subst same
      rw [dlookup_eq_none.mpr fresh] at rest
      cases kept : f a v with
      | none => rw [revised_dropped kept, rest, dlookup_cons_eq, Option.bind_some, kept]; rfl
      | some w =>
        rw [revised_kept kept, dlookup_cons_eq, dlookup_cons_eq, Option.bind_some, kept]
    · have apart : a ≠ Sigma.fst (⟨k, v⟩ : Sigma fun _ : κ => ν) := same
      rw [dlookup_cons_ne _ _ apart, ← rest]
      cases kept : f k v with
      | none => rw [revised_dropped kept]
      | some w => rw [revised_kept kept, dlookup_cons_ne _ _ same]

end Table

end MpcNetwork
