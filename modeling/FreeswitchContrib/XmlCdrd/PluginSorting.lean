import FreeswitchContrib.Library.Exchanging
import Mathlib.Data.List.Induction
import Mathlib.Order.Nat

/-!
# The order of the CDR plugins

`plugldr.c` loads the plugins of its table and sorts them by priority, with two loops of which the
bounds are unsigned numbers.  The inner loop goes from the end of the table down to where the outer
one is, and carries the least priority there.

* `xcdrPlugLdrSortPlugins` — the loops, with every index looked up in the table.
* **`sorts_plugins`** — the table is sorted, and plugins of the same priority keep their order.
-/

namespace FreeswitchContrib.XmlCdrd

open Exchanging

/-! ## plugldr.h -/

/-- `XCDR_METRTAG` -/
structure MetricTag where
  metric : List Char
  regexp : List Char
  deriving DecidableEq

/-- `XCDR_PLUGTAG`, with a handle `π` to what the plugin exports. -/
structure PlugTag (π : Type) where
  id : UInt32
  priority : UInt32
  fname : List Char
  options : List Char
  plug : π
  metrics : List MetricTag
  deriving DecidableEq

/-- `XCDR_PLUGTAB`, a table with as many entries as it says. -/
structure PlugTab (π : Type) where
  tags : List (PlugTag π)
  tagCount : UInt32
  length_eq : tags.length = tagCount.toNat

/-! ## plugldr.c -/

variable {π : Type}

/-- The inner loop, for so many turns at most; none is what an index outside the table comes to. -/
def sortInner : ℕ → List (PlugTag π) → UInt32 → UInt32 → Option (List (PlugTag π))
  | 0, _, _, _ => none
  | turns + 1, tags, a, b =>
    if b ≥ a then do
      let before ← tags[(b - 1).toNat]?
      let tag ← tags[b.toNat]?
      let tags :=
        if before.priority > tag.priority then (tags.set (b - 1).toNat tag).set b.toNat before
        else tags
      sortInner turns tags a (b - 1)
    else some tags

/-- The outer loop. -/
def sortOuter (tagCount : UInt32) : ℕ → List (PlugTag π) → UInt32 → Option (List (PlugTag π))
  | 0, _, _ => none
  | turns + 1, tags, a =>
    if a < tagCount then do
      let tags ← sortInner (tagCount.toNat + 1) tags a (tagCount - 1)
      sortOuter tagCount turns tags (a + 1)
    else some tags

/-- `xcdr_plug_ldr_sort_plugins`: neither loop takes more turns than there are plugins. -/
def xcdrPlugLdrSortPlugins (plugtab : PlugTab π) : Option (List (PlugTag π)) :=
  sortOuter plugtab.tagCount (plugtab.tagCount.toNat + 1) plugtab.tags 1

abbrev PlugTag.key (tag : PlugTag π) : ℕ := tag.priority.toNat

/-! ## One pass -/

variable {turns : ℕ} {front mid rest tags : List (PlugTag π)} {tag : PlugTag π} {a b : UInt32}

lemma toNat_pred (hb : 0 < b.toNat) : (b - 1).toNat = b.toNat - 1 :=
  UInt32.toNat_sub_of_le b 1 (UInt32.le_iff_toNat_le.mpr hb)

/-- A turn of the inner loop looks at two neighbours, and leaves the lesser one in front. -/
lemma sortInner_succ (hb : b.toNat = front.length + 1) (hle : a ≤ b) (before : PlugTag π) :
    sortInner (turns + 1) (front ++ before :: tag :: rest) a b =
      if before.priority > tag.priority then
        sortInner turns (front ++ tag :: before :: rest) a (b - 1)
      else sortInner turns (front ++ before :: tag :: rest) a (b - 1) := by
  have hpred : (b - 1).toNat = front.length := by rw [toNat_pred (by omega)]; omega
  have hbefore : (front ++ before :: tag :: rest)[(b - 1).toNat]? = some before := by
    rw [hpred, List.getElem?_append_right (Nat.le_refl _), Nat.sub_self]
    rfl
  have htag : (front ++ before :: tag :: rest)[b.toNat]? = some tag := by
    rw [hb, List.getElem?_append_right (Nat.le_add_right _ 1), Nat.add_sub_cancel_left]
    rfl
  rw [sortInner, if_pos hle, hbefore, htag, Option.bind_eq_bind, Option.bind_some]
  dsimp only [Option.bind_some]
  by_cases hgt : before.priority > tag.priority
  · rw [if_pos hgt, if_pos hgt, hpred, hb, set_set]
  · rw [if_neg hgt, if_neg hgt]

/-- What a pass has come to: behind the settled entries there is the least of the others. -/
structure Passed (front mid : List (PlugTag π)) (tags : List (PlugTag π)) (least : PlugTag π)
    (rest : List (PlugTag π)) : Prop where
  eq : tags = front ++ least :: rest
  rearranged : Rearranged PlugTag.key mid (least :: rest)
  least : ∀ tag ∈ rest, least.key ≤ tag.key

/-- The inner loop goes through `mid` from its end, with the least of what is behind it at hand. -/
lemma sortInner_passes (ha : a.toNat = front.length + 1)
    (hb : b.toNat = front.length + mid.length) (hleast : ∀ other ∈ rest, tag.key ≤ other.key)
    (hturns : mid.length < turns) :
    ∃ tags least rest', sortInner turns (front ++ (mid ++ tag :: rest)) a b = some tags ∧
      Passed front (mid ++ tag :: rest) tags least rest' := by
  induction mid using List.reverseRecOn generalizing turns b tag rest with
  | nil =>
    obtain ⟨turns, rfl⟩ := Nat.exists_eq_succ_of_ne_zero (Nat.ne_of_gt hturns)
    have hstop : ¬ b ≥ a := by
      rw [ge_iff_le, UInt32.le_iff_toNat_le, ha, hb, List.length_nil]
      omega
    exact ⟨_, tag, rest, if_neg hstop, rfl, .refl _, hleast⟩
  | append_singleton mid before ih =>
    rw [List.length_append, List.length_singleton] at hb hturns
    obtain ⟨turns, rfl⟩ := Nat.exists_eq_succ_of_ne_zero (Nat.ne_of_gt (Nat.zero_lt_of_lt hturns))
    have hle : a ≤ b := by
      rw [UInt32.le_iff_toNat_le]
      omega
    have hpred : (b - 1).toNat = front.length + mid.length := by
      rw [toNat_pred (by omega)]
      omega
    have hlength : b.toNat = (front ++ mid).length + 1 := by
      rw [List.length_append]
      omega
    have hsplit : ∀ x y : PlugTag π, front ++ (mid ++ x :: y :: rest) =
        front ++ mid ++ x :: y :: rest := fun x y => by rw [List.append_assoc]
    rw [List.append_assoc, List.singleton_append, hsplit, sortInner_succ hlength hle, ← hsplit,
      ← hsplit]
    by_cases hgt : before.priority > tag.priority
    · -- the lesser one is carried on
      have hlt : tag.key < before.key := UInt32.lt_iff_toNat_lt.mp hgt
      have hleast' : ∀ other ∈ before :: rest, tag.key ≤ other.key := by
        intro other hother
        rcases List.mem_cons.mp hother with rfl | hother
        · exact Nat.le_of_lt hlt
        · exact hleast other hother
      obtain ⟨tags, least, rest', hrun, hpassed⟩ :=
        ih hpred hleast' (Nat.lt_of_succ_lt_succ hturns)
      rw [if_pos hgt]
      exact ⟨tags, least, rest', hrun, hpassed.eq,
        (Rearranged.exchange mid hlt rest).trans hpassed.rearranged, hpassed.least⟩
    · have hle' : before.key ≤ tag.key := Nat.le_of_not_lt fun hlt =>
        hgt (UInt32.lt_iff_toNat_lt.mpr hlt)
      have hleast' : ∀ other ∈ tag :: rest, before.key ≤ other.key := by
        intro other hother
        rcases List.mem_cons.mp hother with rfl | hother
        · exact hle'
        · exact hle'.trans (hleast other hother)
      obtain ⟨tags, least, rest', hrun, hpassed⟩ :=
        ih hpred hleast' (Nat.lt_of_succ_lt_succ hturns)
      rw [if_neg hgt]
      exact ⟨tags, least, rest', hrun, hpassed⟩

/-- The whole pass, from the end of the table. -/
lemma sortInner_passes_all {tagCount : UInt32} (ha : a.toNat = front.length + 1)
    (hcount : (front ++ mid).length = tagCount.toNat) (hmid : mid ≠ []) :
    ∃ tags least rest,
      sortInner (tagCount.toNat + 1) (front ++ mid) a (tagCount - 1) = some tags ∧
      Passed front mid tags least rest := by
  obtain ⟨mid, last, rfl⟩ : ∃ before last, mid = before ++ [last] :=
    ⟨mid.dropLast, mid.getLast hmid, (List.dropLast_append_getLast hmid).symm⟩
  simp only [List.length_append, List.length_singleton] at hcount
  refine sortInner_passes ha ?_ (fun _ hother => absurd hother List.not_mem_nil) (by omega)
  rw [toNat_pred (by omega)]
  omega

/-! ## All passes -/

/-- The outer loop settles one entry a turn. -/
lemma sortOuter_sorts {tagCount : UInt32} (ha : a.toNat = front.length + 1)
    (hcount : (front ++ mid).length = tagCount.toNat) (hsettled : Settled PlugTag.key front mid)
    (hturns : mid.length < turns) :
    ∃ tags, sortOuter tagCount turns (front ++ mid) a = some tags ∧
      Rearranged PlugTag.key (front ++ mid) tags ∧
      tags.Pairwise fun tag tag' => tag.key ≤ tag'.key := by
  induction turns generalizing front mid a with
  | zero => exact absurd hturns (Nat.not_lt_zero _)
  | succ turns ih =>
    rw [sortOuter]
    have hlength := hcount
    rw [List.length_append] at hlength
    by_cases hmore : a < tagCount
    · have hlt := UInt32.lt_iff_toNat_lt.mp hmore
      have hmid : mid ≠ [] := by
        rintro rfl
        rw [List.length_nil] at hlength
        omega
      obtain ⟨tags, least, rest, hpass, hpassed⟩ := sortInner_passes_all ha hcount hmid
      have hperm := hpassed.rearranged.perm
      have hnext : (a + 1).toNat = (front ++ [least]).length + 1 := by
        have hbound := tagCount.toNat_lt
        rw [UInt32.toNat_add, UInt32.toNat_one, Nat.mod_eq_of_lt (by omega), ha,
          List.length_append, List.length_singleton]
      have hcount' : (front ++ [least] ++ rest).length = tagCount.toNat := by
        rw [List.append_assoc, List.singleton_append, List.length_append, hperm.length_eq,
          ← List.length_append, hcount]
      have hsettled' : Settled PlugTag.key (front ++ [least]) rest :=
        (hsettled.perm_right hperm).snoc hpassed.least
      have hshorter : rest.length < turns := by
        have hlen := hperm.length_eq
        rw [List.length_cons] at hlen
        omega
      obtain ⟨tags', hrun, hrearranged, hsorted⟩ := ih hnext hcount' hsettled' hshorter
      have heq : tags = front ++ [least] ++ rest := by
        rw [hpassed.eq, List.append_assoc, List.singleton_append]
      rw [if_pos hmore, hpass, Option.bind_eq_bind, Option.bind_some, heq]
      refine ⟨tags', hrun, ?_, hsorted⟩
      rw [← heq, hpassed.eq] at hrearranged
      exact (hpassed.rearranged.append_left front).trans hrearranged
    · have hge := Nat.le_of_not_lt fun hlt => hmore (UInt32.lt_iff_toNat_lt.mpr hlt)
      rw [if_neg hmore]
      exact ⟨_, rfl, .refl _, hsettled.pairwise (by omega)⟩

/-- **The plugins are sorted**: no index is outside the table, the table is permuted, its priorities
do not decrease, and plugins of the same priority keep their order. -/
theorem sorts_plugins (plugtab : PlugTab π) :
    ∃ tags, xcdrPlugLdrSortPlugins plugtab = some tags ∧
      tags.Perm plugtab.tags ∧
      tags.Pairwise (fun tag tag' => tag.priority ≤ tag'.priority) ∧
      ∀ priority, tags.filter (·.priority = priority) =
        plugtab.tags.filter (·.priority = priority) := by
  have hnone : (1 : UInt32).toNat = ([] : List (PlugTag π)).length + 1 := rfl
  have hcount : ([] ++ plugtab.tags).length = plugtab.tagCount.toNat := plugtab.length_eq
  have hturns : plugtab.tags.length < plugtab.tagCount.toNat + 1 :=
    Nat.lt_succ_of_le (Nat.le_of_eq plugtab.length_eq)
  obtain ⟨tags, hrun, hrearranged, hsorted⟩ := sortOuter_sorts hnone hcount (.nil _) hturns
  refine ⟨tags, hrun, hrearranged.perm, hsorted.imp UInt32.le_iff_toNat_le.mpr, fun priority => ?_⟩
  have hsame : ∀ tag : PlugTag π, decide (tag.key = priority.toNat) =
      decide (tag.priority = priority) := fun tag =>
    decide_eq_decide.mpr ⟨UInt32.toNat_inj.mp, congrArg UInt32.toNat⟩
  have hstable := hrearranged.stable priority.toNat
  simp only [hsame] at hstable
  exact hstable

end FreeswitchContrib.XmlCdrd
