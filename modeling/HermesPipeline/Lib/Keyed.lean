/-
Rows in insertion order with pairwise distinct keys.  A relational table with a
primary key and an insertion-ordered dictionary are both this structure: the
first keys a row by some of its columns, the second by its first component.
-/
import Mathlib.Data.List.Nodup
import Mathlib.Data.List.Sort
import Mathlib.Data.Option.Basic

namespace Lib

universe u v w

/-- Rows in insertion order, no two of them with the same key. -/
structure Keyed {R : Type u} {K : Type v} (key : R → K) where
  rows : List R
  unique : (rows.map key).Nodup

namespace Keyed

variable {R : Type u} {K : Type v} {key : R → K}

@[ext] theorem ext {left right : Keyed key} (hrows : left.rows = right.rows) :
    left = right := by
  cases left
  cases right
  simp only at hrows
  subst hrows
  rfl

instance [DecidableEq R] : DecidableEq (Keyed key) := fun left right =>
  decidable_of_iff (left.rows = right.rows) ⟨ext, congrArg rows⟩

/-- No rows. -/
def empty : Keyed key := ⟨[], List.nodup_nil⟩

@[simp] theorem empty_rows : (empty : Keyed key).rows = [] := rfl

theorem eq_of_key_eq (t : Keyed key) {left right : R} (hleft : left ∈ t.rows)
    (hright : right ∈ t.rows) (heq : key left = key right) : left = right :=
  List.inj_on_of_nodup_map t.unique hleft hright heq

/-- Drop every row that satisfies the predicate. -/
def deleteWhere (t : Keyed key) (p : R → Bool) : Keyed key where
  rows := t.rows.filter fun row => !p row
  unique := t.unique.sublist (List.filter_sublist.map key)

@[simp] theorem deleteWhere_rows (t : Keyed key) (p : R → Bool) :
    (t.deleteWhere p).rows = t.rows.filter fun row => !p row := rfl

/-- Rewrite every row that satisfies the predicate, leaving its key alone. -/
def updateWhere (t : Keyed key) (p : R → Bool) (f : R → R)
    (hkey : ∀ row, key (f row) = key row) : Keyed key where
  rows := t.rows.map fun row => if p row then f row else row
  unique := by
    have hsame : (key ∘ fun row => if p row then f row else row) = key := by
      funext row
      by_cases hp : p row <;> simp [hp, hkey]
    rw [List.map_map, hsame]
    exact t.unique

@[simp] theorem updateWhere_rows (t : Keyed key) (p : R → Bool) (f : R → R)
    (hkey : ∀ row, key (f row) = key row) :
    (t.updateWhere p f hkey).rows =
      t.rows.map fun row => if p row then f row else row := rfl

theorem updateWhere_keys (t : Keyed key) (p : R → Bool) (f : R → R)
    (hkey : ∀ row, key (f row) = key row) :
    (t.updateWhere p f hkey).rows.map key = t.rows.map key := by
  rw [updateWhere_rows, List.map_map]
  apply List.map_congr_left
  intro row _
  by_cases hp : p row <;> simp [hp, hkey]

section Lookup

variable [DecidableEq K]

/-- The row stored under a key. -/
def find? (t : Keyed key) (k : K) : Option R :=
  t.rows.find? fun row => decide (key row = k)

theorem find?_eq_some_iff (t : Keyed key) (k : K) (row : R) :
    t.find? k = some row ↔ row ∈ t.rows ∧ key row = k := by
  constructor
  · intro hfind
    have hkey := List.find?_some hfind
    exact ⟨List.mem_of_find?_eq_some hfind, by simpa using hkey⟩
  · rintro ⟨hmem, rfl⟩
    cases hfind : t.find? (key row) with
    | none =>
        have hnot := List.find?_eq_none.mp hfind row hmem
        simp at hnot
    | some other =>
        have hother : key other = key row := by
          simpa using List.find?_some hfind
        rw [t.eq_of_key_eq (List.mem_of_find?_eq_some hfind) hmem hother]

theorem find?_eq_none_iff (t : Keyed key) (k : K) :
    t.find? k = none ↔ ∀ row ∈ t.rows, key row ≠ k := by
  simp [find?, List.find?_eq_none]

@[simp] theorem find?_empty (k : K) : (empty : Keyed key).find? k = none := rfl

theorem not_mem_keys_of_find?_eq_none {t : Keyed key} {k : K}
    (habsent : t.find? k = none) : k ∉ t.rows.map key := by
  intro hmem
  obtain ⟨row, hrow, hkey⟩ := List.mem_map.mp hmem
  exact (t.find?_eq_none_iff k).mp habsent row hrow hkey

/-- Lookups decide equality of the stored row sets. -/
theorem find?_congr {left right : Keyed key} {k k' : K}
    (h : ∀ row, (row ∈ left.rows ∧ key row = k) ↔
      (row ∈ right.rows ∧ key row = k')) : left.find? k = right.find? k' := by
  apply Option.ext
  intro row
  rw [find?_eq_some_iff, find?_eq_some_iff]
  exact h row

theorem find?_deleteWhere (t : Keyed key) (p : R → Bool) (k : K) :
    (t.deleteWhere p).find? k = (t.find? k).filter fun row => !p row := by
  apply Option.ext
  intro row
  rw [find?_eq_some_iff, Option.filter_eq_some_iff, find?_eq_some_iff]
  simp only [deleteWhere_rows, List.mem_filter]
  tauto

/-- Delete the row stored under a key. -/
def erase (t : Keyed key) (k : K) : Keyed key :=
  t.deleteWhere fun row => decide (key row = k)

@[simp] theorem find?_erase_self (t : Keyed key) (k : K) :
    (t.erase k).find? k = none := by
  rw [find?_eq_none_iff]
  intro row hrow
  simp only [erase, deleteWhere_rows, List.mem_filter] at hrow
  simpa using hrow.2

theorem find?_erase_of_ne (t : Keyed key) {k k' : K} (hne : k' ≠ k) :
    (t.erase k).find? k' = t.find? k' := by
  apply find?_congr
  intro row
  simp only [erase, deleteWhere_rows, List.mem_filter]
  constructor
  · rintro ⟨⟨hmem, -⟩, hk⟩
    exact ⟨hmem, hk⟩
  · rintro ⟨hmem, rfl⟩
    exact ⟨⟨hmem, by simpa using hne⟩, rfl⟩

/-- Append a row whose key is not stored yet. -/
def push (t : Keyed key) (row : R) (habsent : t.find? (key row) = none) :
    Keyed key where
  rows := t.rows ++ [row]
  unique := by
    rw [List.map_append, List.map_singleton]
    exact t.unique.append (List.nodup_singleton _)
      (by simpa using not_mem_keys_of_find?_eq_none habsent)

/-- Insert a row; refused when its key is already stored. -/
def insert? (t : Keyed key) (row : R) : Option (Keyed key) :=
  if habsent : t.find? (key row) = none then some (t.push row habsent) else none

theorem insert?_eq_some_iff (t t' : Keyed key) (row : R) :
    t.insert? row = some t' ↔
      t.find? (key row) = none ∧ t'.rows = t.rows ++ [row] := by
  by_cases habsent : t.find? (key row) = none
  · simp only [insert?, habsent, dif_pos, Option.some.injEq, true_and]
    constructor
    · rintro rfl
      rfl
    · intro hrows
      exact ext hrows.symm
  · simp [insert?, habsent]

theorem insert?_of_absent {t : Keyed key} (row : R)
    (habsent : t.find? (key row) = none) :
    ∃ t', t.insert? row = some t' ∧ t'.rows = t.rows ++ [row] :=
  ⟨t.push row habsent, dif_pos habsent, rfl⟩

/-- Insert the rows one after the other; refused when one of them is ill-formed
or its key is already stored. -/
def insertAll? (t : Keyed key) (ok : R → Bool) (rows : List R) :
    Option (Keyed key) :=
  rows.foldlM (fun acc row => if ok row then acc.insert? row else none) t

/-- A bulk insert goes through exactly when every row is well-formed and the
keys stay distinct, and it then appends the rows. -/
theorem insertAll?_eq_some_iff (t t' : Keyed key) (ok : R → Bool)
    (rows : List R) :
    t.insertAll? ok rows = some t' ↔
      (∀ row ∈ rows, ok row = true) ∧ t'.rows = t.rows ++ rows := by
  induction rows generalizing t with
  | nil =>
      simp only [insertAll?, List.foldlM_nil, List.append_nil, List.not_mem_nil,
        false_implies, implies_true, true_and]
      constructor
      · intro heq
        rw [← Option.some.inj heq]
      · intro heq
        exact congrArg some (ext heq.symm)
  | cons row rest ih =>
      have hcons : t.insertAll? ok (row :: rest) =
          (if ok row then t.insert? row else none).bind fun next =>
            next.insertAll? ok rest := rfl
      rw [hcons, Option.bind_eq_some_iff, List.forall_mem_cons]
      constructor
      · rintro ⟨next, hnext, hrest⟩
        obtain ⟨hok, hinsert⟩ : ok row = true ∧ t.insert? row = some next := by
          by_cases hok : ok row <;> simp_all
        obtain ⟨hall, hrows⟩ := (ih next).mp hrest
        refine ⟨⟨hok, hall⟩, ?_⟩
        rw [hrows, ((insert?_eq_some_iff _ _ _).mp hinsert).2, List.append_assoc,
          List.singleton_append]
      · rintro ⟨⟨hok, hall⟩, hrows⟩
        have hunique := t'.unique
        rw [hrows, List.map_append, List.nodup_append] at hunique
        have habsent : t.find? (key row) = none := by
          rw [find?_eq_none_iff]
          intro stored hstored
          exact hunique.2.2 _ (List.mem_map_of_mem hstored) _
            (List.mem_map_of_mem List.mem_cons_self)
        refine ⟨t.push row habsent, ?_, (ih _).mpr ⟨hall, ?_⟩⟩
        · rw [if_pos hok, insert?, dif_pos habsent]
        · rw [hrows]
          exact (List.append_cons _ _ _)

/-- Insert a row, or replace the row stored under the same key in place. -/
def upsert (t : Keyed key) (row : R) : Keyed key :=
  if habsent : t.find? (key row) = none then t.push row habsent
  else
    { rows := t.rows.map fun old => if key old = key row then row else old
      unique := by
        have hsame : (key ∘ fun old => if key old = key row then row else old) =
            key := by
          funext old
          by_cases hk : key old = key row <;> simp [hk]
        rw [List.map_map, hsame]
        exact t.unique }

theorem upsert_rows_of_absent {t : Keyed key} {row : R}
    (habsent : t.find? (key row) = none) :
    (t.upsert row).rows = t.rows ++ [row] := by
  simp [upsert, habsent, push]

theorem upsert_rows_of_present {t : Keyed key} {row : R}
    (hpresent : t.find? (key row) ≠ none) :
    (t.upsert row).rows =
      t.rows.map fun old => if key old = key row then row else old := by
  simp [upsert, hpresent]

theorem mem_upsert (t : Keyed key) (row other : R) :
    other ∈ (t.upsert row).rows ↔
      other = row ∨ (other ∈ t.rows ∧ key other ≠ key row) := by
  by_cases habsent : t.find? (key row) = none
  · have hnot := (t.find?_eq_none_iff (key row)).mp habsent
    simp only [upsert_rows_of_absent habsent, List.mem_append,
      List.mem_singleton]
    constructor
    · rintro (hold | hnew)
      · exact Or.inr ⟨hold, hnot other hold⟩
      · exact Or.inl hnew
    · rintro (hnew | ⟨hold, -⟩)
      · exact Or.inr hnew
      · exact Or.inl hold
  · obtain ⟨stored, hstored⟩ := Option.ne_none_iff_exists'.mp habsent
    obtain ⟨hmem, hkey⟩ := (t.find?_eq_some_iff _ _).mp hstored
    simp only [upsert_rows_of_present habsent, List.mem_map]
    constructor
    · rintro ⟨old, hold, rfl⟩
      by_cases hk : key old = key row
      · exact Or.inl (by simp [hk])
      · exact Or.inr (by simpa [hk] using hold)
    · rintro (rfl | ⟨hold, hk⟩)
      · exact ⟨stored, hmem, by simp [hkey]⟩
      · exact ⟨other, hold, by simp [hk]⟩

@[simp] theorem find?_upsert_self (t : Keyed key) (row : R) :
    (t.upsert row).find? (key row) = some row := by
  rw [find?_eq_some_iff, mem_upsert]
  exact ⟨Or.inl rfl, rfl⟩

theorem find?_upsert_of_ne (t : Keyed key) {row : R} {k : K}
    (hne : k ≠ key row) : (t.upsert row).find? k = t.find? k := by
  apply find?_congr
  intro other
  rw [mem_upsert]
  constructor
  · rintro ⟨rfl | ⟨hold, -⟩, hk⟩
    · exact absurd hk.symm hne
    · exact ⟨hold, hk⟩
  · rintro ⟨hold, rfl⟩
    exact ⟨Or.inr ⟨hold, hne⟩, rfl⟩

theorem find?_of_insert? {t t' : Keyed key} {row : R}
    (hinsert : t.insert? row = some t') (k : K) :
    t'.find? k = if key row = k then some row else t.find? k := by
  obtain ⟨habsent, hrows⟩ := (t.insert?_eq_some_iff t' row).mp hinsert
  have hupsert : t' = t.upsert row := by
    apply Keyed.ext
    rw [hrows, Keyed.upsert_rows_of_absent habsent]
  rw [hupsert]
  split
  · rename_i hkey
    rw [← hkey, Keyed.find?_upsert_self]
  · rename_i hkey
    exact Keyed.find?_upsert_of_ne t (Ne.symm hkey)

/-- At most one row is stored under a key. -/
theorem filter_key (t : Keyed key) (k : K) :
    (t.rows.filter fun row => decide (key row = k)) = (t.find? k).toList := by
  rcases t with ⟨rows, hunique⟩
  change _ = (rows.find? fun row => decide (key row = k)).toList
  induction rows with
  | nil => rfl
  | cons row rest ih =>
      obtain ⟨hnot, hrest⟩ := List.nodup_cons.mp hunique
      by_cases hk : key row = k
      · have hempty : (rest.filter fun other => decide (key other = k)) = [] := by
          rw [List.filter_eq_nil_iff]
          intro other hother hother'
          apply hnot
          rw [hk, ← of_decide_eq_true hother']
          exact List.mem_map_of_mem hother
        simp [hk, hempty]
      · simpa [hk] using ih hrest

theorem upsert_filter_self (t : Keyed key) (row : R) :
    ((t.upsert row).rows.filter fun other => decide (key other = key row)) =
      [row] := by
  rw [filter_key, find?_upsert_self]
  rfl

theorem upsert_filter_other (t : Keyed key) (row : R) :
    ((t.upsert row).rows.filter fun other => decide (key other ≠ key row)) =
      t.rows.filter fun other => decide (key other ≠ key row) := by
  by_cases habsent : t.find? (key row) = none
  · rw [upsert_rows_of_absent habsent]
    simp [List.filter_append]
  · rw [upsert_rows_of_present habsent, List.filter_map]
    have hsame : ((fun other => decide (key other ≠ key row)) ∘ fun old =>
        if key old = key row then row else old) =
        fun other => decide (key other ≠ key row) := by
      funext old
      by_cases hk : key old = key row <;> simp [hk]
    rw [hsame]
    refine (List.map_congr_left ?_).trans (List.map_id _)
    intro old hold
    have hk : key old ≠ key row := of_decide_eq_true (List.mem_filter.mp hold).2
    simp [hk]

end Lookup

end Keyed

/-- An insertion-ordered dictionary: assigning to a present key keeps its
position, a new key goes last. -/
abbrev Dict (K : Type u) (V : Type v) := Keyed (Prod.fst : K × V → K)

namespace Dict

variable {K : Type u} {V : Type v}

def values (d : Dict K V) : List V := d.rows.map Prod.snd

/-- Keep the entries whose value has an image, under their keys. -/
def filterMap {W : Type w} (d : Dict K V) (f : V → Option W) : Dict K W where
  rows := d.rows.filterMap fun entry => (f entry.2).map fun v => (entry.1, v)
  unique := by
    refine d.unique.sublist ?_
    generalize d.rows = entries
    induction entries with
    | nil => exact List.Sublist.slnil
    | cons entry rest ih =>
        cases hf : f entry.2 with
        | none =>
            simpa [List.filterMap_cons, hf] using ih.cons entry.1
        | some v =>
            simpa [List.filterMap_cons, hf] using ih.cons_cons entry.1

/-- Put the image of every value in its place. -/
def mapValues {W : Type w} (d : Dict K V) (f : V → W) : Dict K W where
  rows := d.rows.map fun entry => (entry.1, f entry.2)
  unique := by
    rw [List.map_map]
    exact d.unique

@[simp] theorem mapValues_rows {W : Type w} (d : Dict K V) (f : V → W) :
    (d.mapValues f).rows = d.rows.map fun entry => (entry.1, f entry.2) := rfl

theorem values_mapValues {W : Type w} (d : Dict K V) (f : V → W) :
    (d.mapValues f).values = d.values.map f := by
  rw [values, mapValues_rows, List.map_map, values, List.map_map]
  rfl

theorem mapValues_injective {W : Type w} {f : V → W} (hf : Function.Injective f) :
    Function.Injective fun d : Dict K V => d.mapValues f := by
  intro left right hsame
  have hentries : Function.Injective fun entry : K × V => (entry.1, f entry.2) := by
    rintro ⟨k, v⟩ ⟨k', v'⟩ hentry
    obtain ⟨hk, hv⟩ := Prod.mk.inj hentry
    exact Prod.ext hk (hf hv)
  exact Keyed.ext (List.map_injective_iff.mpr hentries (congrArg Keyed.rows hsame))

section KeyedBy

variable {key : V → K}

/-- Every value is stored under its own key. -/
def KeyedBy (key : V → K) (d : Dict K V) : Prop :=
  ∀ entry ∈ d.rows, entry.1 = key entry.2

theorem keyedBy_empty : KeyedBy key (.empty : Dict K V) := by
  intro entry hentry
  cases hentry

theorem KeyedBy.deleteWhere {d : Dict K V} (hd : d.KeyedBy key)
    (p : K × V → Bool) : KeyedBy key (Keyed.deleteWhere d p) :=
  fun entry hentry => hd entry (List.mem_filter.mp hentry).1

theorem KeyedBy.mapValues {W : Type w} {d : Dict K V} (hd : d.KeyedBy key)
    {key' : W → K} {f : V → W} (hkey : ∀ v, key' (f v) = key v) :
    (d.mapValues f).KeyedBy key' := by
  intro entry hentry
  obtain ⟨stored, hstored, rfl⟩ := List.mem_map.mp hentry
  exact (hd stored hstored).trans (hkey stored.2).symm

/-- The entries are the values under their own keys. -/
theorem KeyedBy.rows_eq {d : Dict K V} (hd : d.KeyedBy key) :
    d.values.map (fun v => (key v, v)) = d.rows := by
  rw [values, List.map_map]
  conv_rhs => rw [← List.map_id d.rows]
  exact List.map_congr_left fun entry hentry =>
    Prod.ext (hd entry hentry).symm rfl

theorem KeyedBy.keys_nodup {d : Dict K V} (hd : d.KeyedBy key) :
    (d.values.map key).Nodup := by
  have hkeys : d.values.map key = d.rows.map Prod.fst := by
    rw [values, List.map_map]
    exact List.map_congr_left fun entry hentry => (hd entry hentry).symm
  rw [hkeys]
  exact d.unique

end KeyedBy

section SortedBy

variable {L : Type w} [LinearOrder L]

/-- The entries in the order of a rank of their keys. -/
def sortedBy (rank : K → L) (d : Dict K V) : List (K × V) :=
  d.rows.insertionSort fun left right => rank left.1 ≤ rank right.1

theorem sortedBy_perm (rank : K → L) (d : Dict K V) :
    (d.sortedBy rank).Perm d.rows :=
  List.perm_insertionSort _ d.rows

end SortedBy

variable [DecidableEq K]

def get? (d : Dict K V) (k : K) : Option V := (d.find? k).map Prod.snd

def getD (d : Dict K V) (k : K) (fallback : V) : V := (d.get? k).getD fallback

def set (d : Dict K V) (k : K) (v : V) : Dict K V := d.upsert (k, v)

def pop (d : Dict K V) (k : K) : Dict K V := d.erase k

/-- Assign every listed entry, in order. -/
def update (d : Dict K V) (entries : List (K × V)) : Dict K V :=
  entries.foldl (fun acc entry => acc.set entry.1 entry.2) d

@[simp] theorem get?_empty (k : K) : get? (Keyed.empty : Dict K V) k = none := rfl

@[simp] theorem get?_set_self (d : Dict K V) (k : K) (v : V) :
    (d.set k v).get? k = some v := by
  have hfind := Keyed.find?_upsert_self d (k, v)
  simp only at hfind
  simp [get?, set, hfind]

theorem get?_set_of_ne (d : Dict K V) {k k' : K} (v : V) (hne : k' ≠ k) :
    (d.set k v).get? k' = d.get? k' := by
  have hfind : (d.upsert (k, v)).find? k' = d.find? k' :=
    Keyed.find?_upsert_of_ne d hne
  simp [get?, set, hfind]

@[simp] theorem get?_pop_self (d : Dict K V) (k : K) : (d.pop k).get? k = none := by
  simp [get?, pop]

theorem get?_pop_of_ne (d : Dict K V) {k k' : K} (hne : k' ≠ k) :
    (d.pop k).get? k' = d.get? k' := by
  simp [get?, pop, Keyed.find?_erase_of_ne d hne]

theorem get?_eq_some_iff (d : Dict K V) (k : K) (v : V) :
    d.get? k = some v ↔ (k, v) ∈ d.rows := by
  rw [get?, Option.map_eq_some_iff]
  constructor
  · rintro ⟨⟨k', v'⟩, hfind, rfl⟩
    obtain ⟨hmem, rfl⟩ := (d.find?_eq_some_iff _ _).mp hfind
    exact hmem
  · intro hmem
    exact ⟨_, (d.find?_eq_some_iff _ _).mpr ⟨hmem, rfl⟩, rfl⟩

theorem mem_keys_iff (d : Dict K V) (k : K) :
    k ∈ d.rows.map Prod.fst ↔ d.get? k ≠ none := by
  rw [Option.ne_none_iff_exists']
  simp only [get?_eq_some_iff, List.mem_map, Prod.exists, exists_and_right,
    exists_eq_right]

/-- A dictionary with the keys and values of a table looks up its rows. -/
theorem get?_of_rows {R : Type w} {key : R → K} {t : Keyed key} {d : Dict K V}
    {value : R → V} (hrows : d.rows = t.rows.map fun row => (key row, value row))
    (k : K) : d.get? k = (t.find? k).map value := by
  rw [get?, Keyed.find?, Keyed.find?, hrows, List.find?_map, Option.map_map]
  rfl

theorem find?_eq_none_iff_get? (d : Dict K V) (k : K) :
    d.find? k = none ↔ d.get? k = none := by
  simp [get?]

theorem set_rows_of_absent {d : Dict K V} {k : K} {v : V}
    (habsent : d.get? k = none) : (d.set k v).rows = d.rows ++ [(k, v)] :=
  Keyed.upsert_rows_of_absent ((d.find?_eq_none_iff_get? k).mpr habsent)

/-- Assigning to a present key keeps the keys and their order. -/
theorem set_keys_of_present {d : Dict K V} {k : K} {v : V}
    (hpresent : d.get? k ≠ none) :
    (d.set k v).rows.map Prod.fst = d.rows.map Prod.fst := by
  have hfind : d.find? (Prod.fst (k, v)) ≠ none := fun habsent =>
    hpresent ((d.find?_eq_none_iff_get? k).mp habsent)
  rw [set, Keyed.upsert_rows_of_present hfind, List.map_map]
  apply List.map_congr_left
  intro entry _
  by_cases hk : entry.1 = k <;> simp [hk]

theorem set_filter_self (d : Dict K V) (k : K) (v : V) :
    ((d.set k v).rows.filter fun entry => decide (entry.1 = k)) = [(k, v)] :=
  Keyed.upsert_filter_self d (k, v)

theorem set_filter_other (d : Dict K V) (k : K) (v : V) :
    ((d.set k v).rows.filter fun entry => decide (entry.1 ≠ k)) =
      d.rows.filter fun entry => decide (entry.1 ≠ k) :=
  Keyed.upsert_filter_other d (k, v)

theorem get?_set (d : Dict K V) (k k' : K) (v : V) :
    (d.set k v).get? k' = if k' = k then some v else d.get? k' := by
  by_cases hk : k' = k
  · subst hk
    simp
  · rw [get?_set_of_ne d v hk, if_neg hk]

theorem get?_pop (d : Dict K V) (k k' : K) :
    (d.pop k).get? k' = if k' = k then none else d.get? k' := by
  by_cases hk : k' = k
  · subst hk
    simp
  · rw [get?_pop_of_ne d hk, if_neg hk]

theorem mem_rows_iff (d : Dict K V) (k : K) (v : V) :
    (k, v) ∈ d.rows ↔ d.get? k = some v := by
  rw [get?, Option.map_eq_some_iff]
  constructor
  · intro hmem
    exact ⟨(k, v), (d.find?_eq_some_iff k _).mpr ⟨hmem, rfl⟩, rfl⟩
  · rintro ⟨entry, hentry, rfl⟩
    obtain ⟨hmem, rfl⟩ := (d.find?_eq_some_iff k entry).mp hentry
    exact hmem

theorem get?_filterMap {W : Type w} (d : Dict K V) (f : V → Option W) (k : K) :
    (d.filterMap f).get? k = (d.get? k).bind f := by
  apply Option.ext
  intro v
  rw [← mem_rows_iff, Option.bind_eq_some_iff]
  simp only [filterMap, List.mem_filterMap, Option.map_eq_some_iff,
    Prod.mk.injEq]
  constructor
  · rintro ⟨entry, hentry, value, hvalue, hk, rfl⟩
    exact ⟨entry.2, (d.mem_rows_iff k _).mp (hk ▸ hentry), hvalue⟩
  · rintro ⟨value, hvalue, hv⟩
    exact ⟨(k, value), (d.mem_rows_iff k value).mpr hvalue, v, hv, rfl, rfl⟩

/-- Assigning entries with distinct keys overrides what was there. -/
theorem get?_update_of_nodup (d : Dict K V) {entries : List (K × V)}
    (hunique : (entries.map Prod.fst).Nodup) (k : K) :
    (d.update entries).get? k =
      ((entries.find? fun entry => entry.1 = k).map Prod.snd).or (d.get? k) := by
  induction entries generalizing d with
  | nil => rfl
  | cons entry rest ih =>
      rw [List.map_cons, List.nodup_cons] at hunique
      have hrest := ih (d.set entry.1 entry.2) hunique.2
      rw [update, List.foldl_cons]
      refine hrest.trans ?_
      by_cases hk : entry.1 = k
      · subst hk
        have hfind : (rest.find? fun other => decide (other.1 = entry.1)) =
            none := by
          rw [List.find?_eq_none]
          intro other hother hsame
          apply hunique.1
          rw [← of_decide_eq_true hsame]
          exact List.mem_map_of_mem hother
        simp [hfind]
      · rw [List.find?_cons_of_neg (by simpa using hk),
          get?_set_of_ne d entry.2 (Ne.symm hk)]

/-- Assigning the entries of a dictionary to an empty one gives it back. -/
theorem update_empty_rows (d : Dict K V) :
    update (.empty : Dict K V) d.rows = d := by
  have happend : ∀ (entries : List (K × V)) (acc : Dict K V),
      ((acc.rows ++ entries).map Prod.fst).Nodup →
        (acc.update entries).rows = acc.rows ++ entries := by
    intro entries
    induction entries with
    | nil => simp [update]
    | cons entry rest ih =>
        intro acc hunique
        have habsent : acc.get? entry.1 = none := by
          rw [← find?_eq_none_iff_get?, Keyed.find?_eq_none_iff]
          intro row hrow heq
          rw [List.map_append, List.nodup_append] at hunique
          exact hunique.2.2 _ (List.mem_map_of_mem hrow) _
            (List.mem_map_of_mem List.mem_cons_self) heq
        have hrows := set_rows_of_absent habsent (v := entry.2)
        rw [update, List.foldl_cons]
        change (update (acc.set entry.1 entry.2) rest).rows = _
        rw [ih, hrows, List.append_assoc]
        · rfl
        · rw [hrows, List.append_assoc]
          exact hunique
  apply Keyed.ext
  rw [happend d.rows .empty (by simpa using d.unique)]
  rfl

theorem get?_update_rows (d e : Dict K V) (k : K) :
    (d.update e.rows).get? k = (e.get? k).or (d.get? k) :=
  d.get?_update_of_nodup e.unique k

section KeyedBy

variable {key : V → K}

theorem KeyedBy.set {d : Dict K V} (hd : d.KeyedBy key) {k : K} {v : V}
    (hk : k = key v) : (d.set k v).KeyedBy key := by
  intro entry hentry
  rcases (Keyed.mem_upsert _ _ _).mp hentry with rfl | ⟨hold, -⟩
  · exact hk
  · exact hd entry hold

theorem KeyedBy.pop {d : Dict K V} (hd : d.KeyedBy key) (k : K) :
    (d.pop k).KeyedBy key :=
  hd.deleteWhere _

theorem KeyedBy.key_of_get? {d : Dict K V} (hd : d.KeyedBy key) {k : K} {v : V}
    (hget : d.get? k = some v) : k = key v :=
  hd (k, v) ((d.mem_rows_iff k v).mpr hget)

theorem keyedBy_update {d : Dict K V} (hd : d.KeyedBy key) (items : List V) :
    (d.update (items.map fun item => (key item, item))).KeyedBy key := by
  induction items generalizing d with
  | nil => exact hd
  | cons item rest ih => exact ih (hd.set rfl)

/-- Filing the values again gives the dictionary back. -/
theorem KeyedBy.update_values {d : Dict K V} (hd : d.KeyedBy key) :
    update (.empty : Dict K V) (d.values.map fun v => (key v, v)) = d := by
  rw [hd.rows_eq, update_empty_rows]

end KeyedBy

section Sorted

variable {L : Type w} [LinearOrder L]

/-- What is looked up determines the sorted entries, and the other way round. -/
theorem sortedBy_eq_iff {rank : K → L} (hrank : Function.Injective rank)
    (left right : Dict K V) :
    left.sortedBy rank = right.sortedBy rank ↔ ∀ k, left.get? k = right.get? k := by
  constructor
  · intro hsorted k
    have hperm : left.rows.Perm right.rows :=
      (left.sortedBy_perm rank).symm.trans (hsorted ▸ right.sortedBy_perm rank)
    apply Option.ext
    intro v
    rw [get?_eq_some_iff, get?_eq_some_iff, hperm.mem_iff]
  · intro hsame
    have hperm : left.rows.Perm right.rows := by
      apply (List.perm_ext_iff_of_nodup left.unique.of_map right.unique.of_map).mpr
      intro entry
      rw [← left.get?_eq_some_iff entry.1 entry.2, hsame, get?_eq_some_iff]
    have hsorted := (left.sortedBy_perm rank).trans
      (hperm.trans (right.sortedBy_perm rank).symm)
    refine hsorted.eq_of_pairwise ?_ (List.pairwise_insertionSort _ _)
      (List.pairwise_insertionSort _ _)
    -- two entries of one rank have one key, and a key has one value
    intro entry other hentry hother hle hge
    have hkey := hrank (le_antisymm hle hge)
    exact right.eq_of_key_eq
      (hperm.mem_iff.mp ((left.sortedBy_perm rank).mem_iff.mp hentry))
      ((right.sortedBy_perm rank).mem_iff.mp hother) hkey

end Sorted

end Dict

namespace Keyed

variable {R : Type u} {K : Type v} {key : R → K}

/-- A keyed table as a dictionary from keys to rows. -/
def toDict (t : Keyed key) : Dict K R where
  rows := t.rows.map fun row => (key row, row)
  unique := by
    rw [List.map_map]
    exact t.unique

@[simp] theorem toDict_rows (t : Keyed key) :
    t.toDict.rows = t.rows.map fun row => (key row, row) := rfl

@[simp] theorem toDict_empty : (empty : Keyed key).toDict = empty := rfl

@[simp] theorem values_toDict (t : Keyed key) : t.toDict.values = t.rows := by
  rw [Dict.values, toDict_rows, List.map_map]
  exact List.map_id _

theorem toDict_deleteWhere (t : Keyed key) (p : R → Bool) :
    (t.deleteWhere p).toDict = t.toDict.deleteWhere fun entry => p entry.2 := by
  apply ext
  rw [deleteWhere_rows, toDict_rows, toDict_rows, List.filter_map,
    deleteWhere_rows]
  rfl

theorem toDict_eq_iff {t : Keyed key} {d : Dict K R} (hd : d.KeyedBy key) :
    t.toDict = d ↔ t.rows = d.values := by
  constructor
  · rintro rfl
    exact t.values_toDict.symm
  · intro hrows
    apply ext
    rw [toDict_rows, hrows, hd.rows_eq]

variable [DecidableEq K]

@[simp] theorem get?_toDict (t : Keyed key) (k : K) :
    t.toDict.get? k = t.find? k := by
  apply Option.ext
  intro row
  rw [Dict.get?, Option.map_eq_some_iff, find?_eq_some_iff]
  constructor
  · rintro ⟨entry, hentry, rfl⟩
    obtain ⟨hmem, rfl⟩ := (t.toDict.find?_eq_some_iff _ _).mp hentry
    obtain ⟨stored, hstored, rfl⟩ := List.mem_map.mp hmem
    exact ⟨hstored, rfl⟩
  · rintro ⟨hmem, rfl⟩
    exact ⟨(key row, row), (t.toDict.find?_eq_some_iff _ _).mpr
      ⟨List.mem_map_of_mem hmem, rfl⟩, rfl⟩

theorem toDict_upsert (t : Keyed key) (row : R) :
    (t.upsert row).toDict = t.toDict.set (key row) row := by
  have hiff : t.toDict.find? (key row) = none ↔ t.find? (key row) = none := by
    rw [Dict.find?_eq_none_iff_get?, get?_toDict]
  apply ext
  by_cases habsent : t.find? (key row) = none
  · rw [toDict_rows, upsert_rows_of_absent habsent, Dict.set,
      upsert_rows_of_absent (hiff.mpr habsent), toDict_rows]
    simp
  · rw [toDict_rows, upsert_rows_of_present habsent, Dict.set,
      upsert_rows_of_present fun hnone => habsent (hiff.mp hnone), toDict_rows,
      List.map_map, List.map_map]
    apply List.map_congr_left
    intro old _
    by_cases hk : key old = key row <;> simp [hk]

theorem toDict_erase (t : Keyed key) (k : K) :
    (t.erase k).toDict = t.toDict.pop k := by
  apply ext
  rw [toDict_rows, erase, deleteWhere_rows, Dict.pop, erase, deleteWhere_rows,
    toDict_rows, List.filter_map]
  rfl

theorem toDict_insert? {t t' : Keyed key} {row : R}
    (hinsert : t.insert? row = some t') :
    t'.toDict = t.toDict.set (key row) row := by
  obtain ⟨habsent, hrows⟩ := (t.insert?_eq_some_iff t' row).mp hinsert
  have hupsert : t' = t.upsert row := by
    apply ext
    rw [hrows, upsert_rows_of_absent habsent]
  rw [hupsert, toDict_upsert]

/-- An update addressed to one key is an assignment to that key, if its row
meets the rest of the condition. -/
theorem toDict_updateWhere (t : Keyed key) (k : K) (p q : R → Bool) (f : R → R)
    (hkey : ∀ row, key (f row) = key row)
    (hq : ∀ row, q row = (decide (key row = k) && p row)) :
    (t.updateWhere q f hkey).toDict =
      match t.find? k with
      | none => t.toDict
      | some row => if p row then t.toDict.set k (f row) else t.toDict := by
  have hother : ∀ row, key row ≠ k → q row = false := by
    intro row hne
    simp [hq, hne]
  apply ext
  rw [toDict_rows, updateWhere_rows, List.map_map]
  cases hfind : t.find? k with
  | none =>
      apply List.map_congr_left
      intro row hrow
      have hne := (t.find?_eq_none_iff k).mp hfind row hrow
      simp [hother row hne]
  | some stored =>
      obtain ⟨hmem, rfl⟩ := (t.find?_eq_some_iff _ _).mp hfind
      have hsame : ∀ row ∈ t.rows, key row = key stored → row = stored :=
        fun row hrow heq => t.eq_of_key_eq hrow hmem heq
      by_cases hp : p stored
      · have hpresent : t.toDict.find? (key stored) ≠ none := by
          rw [ne_eq, Dict.find?_eq_none_iff_get?, get?_toDict, hfind]
          exact Option.some_ne_none stored
        simp only [hp, ↓reduceIte, Dict.set]
        rw [upsert_rows_of_present hpresent, toDict_rows, List.map_map]
        apply List.map_congr_left
        intro row hrow
        by_cases heq : key row = key stored
        · obtain rfl := hsame row hrow heq
          simp [hq, hp, hkey]
        · simp [hother row heq, heq]
      · simp only [hp, Bool.false_eq_true, ↓reduceIte]
        apply List.map_congr_left
        intro row hrow
        by_cases heq : key row = key stored
        · obtain rfl := hsame row hrow heq
          simp [hq, hp]
        · simp [hother row heq]

end Keyed

end Lib
