import Mathlib.Data.List.Basic
import Mathlib.Order.Basic
import Mathlib.Order.Defs.LinearOrder
import Mathlib.Order.Lattice
import Mathlib.Tactic.SplitIfs

/-!
# Maps in the order of their keys

A map as a list of entries with increasing keys, which is the order in which they are visited.

`find?_insert` and `find?_erase` say what an update changes, `mem_entries` that the entries are what
is found.
-/

structure OrderedMap (κ ν : Type) [LinearOrder κ] where
  entries : List (κ × ν)
  ordered : entries.Pairwise fun a b => a.1 < b.1

namespace OrderedMap

variable {κ ν : Type} [LinearOrder κ]

def empty : OrderedMap κ ν := ⟨[], .nil⟩

def find? (map : OrderedMap κ ν) (k : κ) : Option ν := map.entries.lookup k

def isEmpty (map : OrderedMap κ ν) : Bool := map.entries.isEmpty

/-- The entries with this one in its place, where it stands for an earlier one of its key. -/
def insertEntry (k : κ) (v : ν) : List (κ × ν) → List (κ × ν)
  | [] => [(k, v)]
  | (k', v') :: rest =>
    if k < k' then (k, v) :: (k', v') :: rest
    else if k = k' then (k, v) :: rest
    else (k', v') :: insertEntry k v rest

lemma mem_insertEntry {k : κ} {v : ν} {e : κ × ν} {entries : List (κ × ν)}
    (h : e ∈ insertEntry k v entries) : e = (k, v) ∨ e ∈ entries := by
  induction entries with
  | nil => exact .inl (List.mem_singleton.1 h)
  | cons entry rest ih =>
    obtain ⟨k', v'⟩ := entry
    rw [insertEntry] at h
    split_ifs at h
    · exact List.mem_cons.1 h
    · exact (List.mem_cons.1 h).imp id (List.mem_cons_of_mem _)
    · rcases List.mem_cons.1 h with rfl | h
      · exact .inr List.mem_cons_self
      · exact (ih h).imp id (List.mem_cons_of_mem _)

lemma insertEntry_ordered {k : κ} {v : ν} {entries : List (κ × ν)}
    (h : entries.Pairwise fun a b => a.1 < b.1) :
    (insertEntry k v entries).Pairwise fun a b => a.1 < b.1 := by
  induction entries with
  | nil => exact List.pairwise_singleton _ _
  | cons entry rest ih =>
    obtain ⟨k', v'⟩ := entry
    obtain ⟨hhead, hrest⟩ := List.pairwise_cons.1 h
    rw [insertEntry]
    split_ifs with hlt heq
    · refine List.pairwise_cons.2 ⟨fun e he => ?_, h⟩
      rcases List.mem_cons.1 he with rfl | he
      · exact hlt
      · exact hlt.trans (hhead e he)
    · subst heq
      exact List.pairwise_cons.2 ⟨hhead, hrest⟩
    · refine List.pairwise_cons.2 ⟨fun e he => ?_, ih hrest⟩
      rcases mem_insertEntry he with rfl | he
      · exact lt_of_le_of_ne (not_lt.1 hlt) (Ne.symm heq)
      · exact hhead e he

def insert (map : OrderedMap κ ν) (k : κ) (v : ν) : OrderedMap κ ν :=
  ⟨insertEntry k v map.entries, insertEntry_ordered map.ordered⟩

def erase (map : OrderedMap κ ν) (k : κ) : OrderedMap κ ν :=
  ⟨map.entries.filter fun e => e.1 ≠ k, map.ordered.filter _⟩

lemma lookup_entry (k k' : κ) (v : ν) (rest : List (κ × ν)) :
    List.lookup k' ((k, v) :: rest) = if k' = k then some v else List.lookup k' rest := by
  rw [List.lookup_cons]
  split_ifs with h
  · rw [beq_iff_eq.2 h]
  · rw [beq_false_of_ne h]

@[simp] lemma find?_empty (k : κ) : (empty : OrderedMap κ ν).find? k = none := rfl

@[simp] lemma find?_insert (map : OrderedMap κ ν) (k k' : κ) (v : ν) :
    (map.insert k v).find? k' = if k' = k then some v else map.find? k' := by
  unfold find? insert
  dsimp only
  induction map.entries with
  | nil => rw [insertEntry, lookup_entry]
  | cons entry rest ih =>
    obtain ⟨key, value⟩ := entry
    rw [insertEntry]
    by_cases hk : k < key
    · rw [if_pos hk, lookup_entry]
    · rw [if_neg hk]
      by_cases heq : k = key
      · subst heq
        rw [if_pos rfl, lookup_entry, lookup_entry]
        split_ifs <;> rfl
      · rw [if_neg heq, lookup_entry, lookup_entry, ih]
        split_ifs with hkey hk'
        · exact absurd (hk'.symm.trans hkey) heq
        · rfl
        · rfl
        · rfl

@[simp] lemma find?_erase (map : OrderedMap κ ν) (k k' : κ) :
    (map.erase k).find? k' = if k' = k then none else map.find? k' := by
  unfold find? erase
  dsimp only
  induction map.entries with
  | nil => split_ifs <;> rfl
  | cons entry rest ih =>
    obtain ⟨key, value⟩ := entry
    rw [lookup_entry]
    by_cases hkey : key = k
    · subst hkey
      rw [List.filter_cons_of_neg (by simp), ih]
      split_ifs <;> rfl
    · rw [List.filter_cons_of_pos (by simpa using hkey), lookup_entry, ih]
      split_ifs with h h'
      · exact absurd (h.symm.trans h') hkey
      · rfl
      · rfl
      · rfl

/-- **The entries are what is found.** -/
theorem mem_entries {map : OrderedMap κ ν} {k : κ} {v : ν} :
    (k, v) ∈ map.entries ↔ map.find? k = some v := by
  unfold find?
  obtain ⟨entries, hordered⟩ := map
  dsimp only
  induction entries with
  | nil => simp
  | cons entry rest ih =>
    obtain ⟨key, value⟩ := entry
    obtain ⟨hhead, hrest⟩ := List.pairwise_cons.1 hordered
    rw [List.mem_cons, lookup_entry, ih hrest]
    split_ifs with h
    · subst h
      have hnot : rest.lookup k ≠ some v := fun hlookup =>
        lt_irrefl _ (hhead (k, v) ((ih hrest).2 hlookup))
      simp [hnot, eq_comm]
    · simp [h]

lemma nodup_entries (map : OrderedMap κ ν) : map.entries.Nodup := by
  refine List.Pairwise.imp (fun hlt => ?_) map.ordered
  rintro rfl
  exact lt_irrefl _ hlt

/-- Maps in which the same is found have the same entries in the same order. -/
theorem ext_find? {map map' : OrderedMap κ ν} (h : ∀ k, map.find? k = map'.find? k) :
    map.entries = map'.entries := by
  have hperm : map.entries.Perm map'.entries :=
    (List.perm_ext_iff_of_nodup map.nodup_entries map'.nodup_entries).2 fun ⟨k, v⟩ => by
      rw [mem_entries, mem_entries, h]
  exact List.Perm.eq_of_pairwise
    (fun _ _ _ _ hlt hlt' => absurd (hlt.trans hlt') (lt_irrefl _)) map.ordered map'.ordered hperm

lemma isEmpty_iff {map : OrderedMap κ ν} : map.isEmpty ↔ ∀ k, map.find? k = none := by
  unfold isEmpty find?
  rw [List.isEmpty_iff]
  constructor
  · intro h k
    rw [h]
    rfl
  · intro h
    cases hentries : map.entries with
    | nil => rfl
    | cons entry rest =>
      obtain ⟨key, value⟩ := entry
      have hkey := h key
      rw [hentries, lookup_entry, if_pos rfl] at hkey
      cases hkey

end OrderedMap
