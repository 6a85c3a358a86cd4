/-!
# Tables

Tables in order of insertion. A key keeps the place of its first entry; a later entry under the same
key replaces the value and nothing else. The entries are the view of a table: every operation is
described by what it does to them.
-/
namespace WidgetView

structure Table (κ α : Type) where
  entries : List (κ × α) := []
  deriving Repr, DecidableEq

namespace Table

variable {κ α : Type} [DecidableEq κ]

def empty : Table κ α := ⟨[]⟩

instance : Inhabited (Table κ α) := ⟨empty⟩

def keys (t : Table κ α) : List κ := t.entries.map Prod.fst

def isEmpty (t : Table κ α) : Bool := t.entries.isEmpty

/-- The value under a key in a list of entries. -/
def lookup (k : κ) : List (κ × α) → Option α
  | [] => none
  | (k', v) :: rest => if k' = k then some v else lookup k rest

/-- Replace the value under a key where it stands, or put a new entry at the end. -/
def place (k : κ) (v : α) : List (κ × α) → List (κ × α)
  | [] => [(k, v)]
  | (k', v') :: rest => if k' = k then (k', v) :: rest else (k', v') :: place k v rest

def get? (t : Table κ α) (k : κ) : Option α := lookup k t.entries

def contains (t : Table κ α) (k : κ) : Bool := (t.get? k).isSome

def insert (t : Table κ α) (k : κ) (v : α) : Table κ α := ⟨place k v t.entries⟩

/-- Insert the entries of a list one after another. -/
def insertAll (t : Table κ α) (entries : List (κ × α)) : Table κ α :=
  entries.foldl (fun t e => t.insert e.1 e.2) t

def ofList (entries : List (κ × α)) : Table κ α := empty.insertAll entries

/-- Change the value under a key, which starts from `default` when the key is new. -/
def update (t : Table κ α) (k : κ) (default : α) (f : α → α) : Table κ α :=
  t.insert k (f ((t.get? k).getD default))

@[simp] theorem lookup_nil (k : κ) : lookup k ([] : List (κ × α)) = none := rfl

@[simp] theorem lookup_place_same (k : κ) (v : α) (l : List (κ × α)) :
    lookup k (place k v l) = some v := by
  induction l with
  | nil => simp [place, lookup]
  | cons e l ih => by_cases h : e.1 = k <;> simp [place, lookup, h, ih]

theorem lookup_place_other (k j : κ) (v : α) (l : List (κ × α)) (h : j ≠ k) :
    lookup j (place k v l) = lookup j l := by
  induction l with
  | nil => simp [place, lookup, Ne.symm h]
  | cons e l ih =>
    by_cases hk : e.1 = k
    · have : ¬ e.1 = j := by rw [hk]; exact Ne.symm h
      simp [place, lookup, hk, Ne.symm h]
    · by_cases hj : e.1 = j
      · simp [place, lookup, hj, h]
      · simp [place, lookup, hk, hj, ih]

theorem lookup_map {β : Type} (f : α → β) (k : κ) (l : List (κ × α)) :
    lookup k (l.map fun e => (e.1, f e.2)) = (lookup k l).map f := by
  induction l with
  | nil => rfl
  | cons e l ih =>
    rw [List.map_cons, lookup, lookup]
    split
    · rfl
    · exact ih

theorem lookup_eq_none {k : κ} {l : List (κ × α)} (h : k ∉ l.map Prod.fst) : lookup k l = none := by
  induction l with
  | nil => rfl
  | cons e l ih =>
    rw [List.map_cons, List.mem_cons, not_or] at h
    rw [lookup, if_neg fun heq => h.1 heq.symm, ih h.2]

theorem mem_of_lookup {k : κ} {v : α} {l : List (κ × α)} (h : lookup k l = some v) :
    (k, v) ∈ l := by
  induction l with
  | nil => cases h
  | cons e l ih =>
    simp only [lookup] at h
    split at h
    · next hk =>
      obtain rfl := Option.some.inj h
      rw [← hk]
      exact List.mem_cons_self
    · exact List.mem_cons_of_mem _ (ih h)

theorem mem_of_mem_place {k : κ} {v : α} {l : List (κ × α)} {e : κ × α} (h : e ∈ place k v l) :
    e = (k, v) ∨ e ∈ l := by
  induction l with
  | nil => exact Or.inl (List.mem_singleton.mp h)
  | cons e' l ih =>
    simp only [place] at h
    split at h
    · next hk =>
      rw [hk] at h
      rcases List.mem_cons.mp h with he | he
      · exact Or.inl he
      · exact Or.inr (List.mem_cons_of_mem _ he)
    · rcases List.mem_cons.mp h with rfl | he
      · exact Or.inr List.mem_cons_self
      · exact (ih he).imp_right (List.mem_cons_of_mem _)

/-- An entry after insertions was there before, or was inserted. -/
theorem mem_of_mem_insertAll {t : Table κ α} {es : List (κ × α)} {e : κ × α}
    (h : e ∈ (t.insertAll es).entries) : e ∈ t.entries ∨ e ∈ es := by
  induction es generalizing t with
  | nil => exact Or.inl h
  | cons e' es ih =>
    rcases ih h with he | he
    · rcases mem_of_mem_place he with rfl | he
      · exact Or.inr List.mem_cons_self
      · exact Or.inl he
    · exact Or.inr (List.mem_cons_of_mem _ he)

@[simp] theorem get?_empty (k : κ) : (empty : Table κ α).get? k = none := rfl

@[simp] theorem get?_insert_same (t : Table κ α) (k : κ) (v : α) :
    (t.insert k v).get? k = some v := by simp [get?, insert]

theorem get?_insert_other (t : Table κ α) (k j : κ) (v : α) (h : j ≠ k) :
    (t.insert k v).get? j = t.get? j := by simp [get?, insert, lookup_place_other _ _ _ _ h]

/-- A new key goes to the end of the keys, a known key leaves them alone. -/
theorem keys_insert (t : Table κ α) (k : κ) (v : α) :
    (t.insert k v).keys = if k ∈ t.keys then t.keys else t.keys ++ [k] := by
  obtain ⟨l⟩ := t
  simp only [keys, insert]
  induction l with
  | nil => simp [place]
  | cons e l ih =>
    by_cases h : e.1 = k
    · simp [place, h]
    · have h' : ¬ k = e.1 := fun he => h he.symm
      simp only [place, h, ↓reduceIte, List.map_cons, ih, List.mem_cons, h', false_or]
      by_cases hk : k ∈ l.map Prod.fst <;> simp [hk]

end Table

end WidgetView
