/-!
# Tables in insertion order

A `Table` maps keys to values and remembers the order in which its keys were first entered.
Writing to a key that is present keeps its place; a key that is erased and entered again goes to
the end.  No key occurs twice.

* `Table.get?_insert`, `Table.get?_erase` : what is found after a change;
* `Table.keys_insert`, `Table.keys_erase` : the order of the keys after a change.
-/

namespace Deduce

/-- A finite map that lists its keys in the order in which they were entered. -/
structure Table (κ α : Type) where
  /-- The entries, oldest first. -/
  entries : List (κ × α)
  /-- No key occurs twice. -/
  nodup : (entries.map Prod.fst).Nodup

namespace Table

variable {κ α : Type}

/-! ### Lists of entries -/

section Entries

variable [DecidableEq κ]

/-- The first value under a key in a list of entries. -/
def find? (k : κ) : List (κ × α) → Option α
  | [] => none
  | (k', a) :: es => if k = k' then some a else find? k es

/-- Writes a value under a key: in place if the key is present, at the end if not. -/
def put (k : κ) (a : α) : List (κ × α) → List (κ × α)
  | [] => [(k, a)]
  | (k', a') :: es => if k = k' then (k', a) :: es else (k', a') :: put k a es

theorem find?_put (k k' : κ) (a : α) (es : List (κ × α)) :
    find? k' (put k a es) = if k' = k then some a else find? k' es := by
  induction es with
  | nil => simp [put, find?]
  | cons e es ih =>
    by_cases h : k = e.1
    · by_cases h' : k' = k <;> simp_all [put, find?]
    · by_cases h' : k' = e.1
      · have : k' ≠ k := fun hk => h (hk ▸ h')
        simp_all [put, find?]
      · simp [put, find?, h, h', ih]

theorem map_fst_put (k : κ) (a : α) (es : List (κ × α)) :
    (put k a es).map Prod.fst =
      if k ∈ es.map Prod.fst then es.map Prod.fst else es.map Prod.fst ++ [k] := by
  induction es with
  | nil => simp [put]
  | cons e es ih =>
    by_cases h : k = e.1
    · simp [put, h]
    · by_cases hk : k ∈ es.map Prod.fst
      · rw [if_pos hk] at ih
        simp [put, h, ih, hk]
      · rw [if_neg hk] at ih
        simp [put, h, ih, hk]

theorem nodup_put (k : κ) (a : α) {es : List (κ × α)} (h : (es.map Prod.fst).Nodup) :
    ((put k a es).map Prod.fst).Nodup := by
  rw [map_fst_put]
  split
  · exact h
  · rename_i hk
    refine List.nodup_append.2 ⟨h, by simp, ?_⟩
    intro x hx y hy hxy
    rw [List.mem_singleton.1 hy] at hxy
    exact hk (hxy ▸ hx)

theorem find?_filter_ne (k k' : κ) (es : List (κ × α)) :
    find? k' (es.filter fun e => e.1 ≠ k) = if k' = k then none else find? k' es := by
  induction es with
  | nil => simp [find?]
  | cons e es ih =>
    by_cases h : e.1 = k
    · rw [List.filter_cons_of_neg (by simpa using h), ih]
      by_cases h' : k' = k
      · simp [h']
      · have : k' ≠ e.1 := fun hk => h' (hk.trans h)
        simp [find?, h', this]
    · rw [List.filter_cons_of_pos (by simpa using h)]
      by_cases h' : k' = e.1
      · simp [find?, h', h]
      · rw [find?, if_neg h', ih, find?, if_neg h']

theorem map_fst_filter_ne (k : κ) (es : List (κ × α)) :
    (es.filter fun e => e.1 ≠ k).map Prod.fst = (es.map Prod.fst).filter (· ≠ k) := by
  rw [List.filter_map]
  rfl

theorem isSome_find? (k : κ) (es : List (κ × α)) :
    (find? k es).isSome = true ↔ k ∈ es.map Prod.fst := by
  induction es with
  | nil => simp [find?]
  | cons e es ih => by_cases h : k = e.1 <;> simp_all [find?]

end Entries

/-! ### Tables -/

/-- The table without entries. -/
def empty : Table κ α := ⟨[], List.nodup_nil⟩

/-- The keys, oldest first. -/
def keys (t : Table κ α) : List κ := t.entries.map Prod.fst

/-- The values, in the order of their keys. -/
def values (t : Table κ α) : List α := t.entries.map Prod.snd

/-- The number of entries. -/
def size (t : Table κ α) : Nat := t.entries.length

theorem nodup_keys (t : Table κ α) : t.keys.Nodup := t.nodup

variable [DecidableEq κ]

/-- The value under a key. -/
def get? (t : Table κ α) (k : κ) : Option α := find? k t.entries

/-- Whether a key is present. -/
def contains (t : Table κ α) (k : κ) : Bool := (t.get? k).isSome

/-- Writes a value under a key. -/
def insert (t : Table κ α) (k : κ) (a : α) : Table κ α := ⟨put k a t.entries, nodup_put k a t.nodup⟩

/-- Removes a key. -/
def erase (t : Table κ α) (k : κ) : Table κ α :=
  ⟨t.entries.filter fun e => e.1 ≠ k,
    t.nodup.sublist (List.Sublist.map Prod.fst List.filter_sublist)⟩

/-- Replaces the value under a key by a function of what is there, if anything. -/
def alter (t : Table κ α) (k : κ) (f : Option α → α) : Table κ α := t.insert k (f (t.get? k))

/-- Writes entries one after the other. -/
def insertAll (t : Table κ α) (es : List (κ × α)) : Table κ α :=
  es.foldl (fun t e => t.insert e.1 e.2) t

/-- The table of a list of entries; of several values under a key the last one counts. -/
def ofList (es : List (κ × α)) : Table κ α := empty.insertAll es

/-! ### What is found, and in which order -/

theorem contains_iff (t : Table κ α) (k : κ) : t.contains k = true ↔ k ∈ t.keys :=
  isSome_find? k t.entries

theorem get?_empty (k : κ) : (empty : Table κ α).get? k = none := rfl

theorem get?_insert (t : Table κ α) (k k' : κ) (a : α) :
    (t.insert k a).get? k' = if k' = k then some a else t.get? k' :=
  find?_put k k' a t.entries

theorem get?_erase (t : Table κ α) (k k' : κ) :
    (t.erase k).get? k' = if k' = k then none else t.get? k' :=
  find?_filter_ne k k' t.entries

theorem keys_insert (t : Table κ α) (k : κ) (a : α) :
    (t.insert k a).keys = if k ∈ t.keys then t.keys else t.keys ++ [k] :=
  map_fst_put k a t.entries

theorem keys_erase (t : Table κ α) (k : κ) : (t.erase k).keys = t.keys.filter (· ≠ k) :=
  map_fst_filter_ne k t.entries

end Table

end Deduce
