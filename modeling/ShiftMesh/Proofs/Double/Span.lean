import ShiftMesh.Proofs.Double.Absorption

/-!
# ShiftMesh.Proofs.Double.Span — the least and the greatest of some doubles

* `spanFrom`: the least and the greatest by one comparison each, from two doubles on.
* `spanFrom_spans`: among numbers, these are bounds, and each is one of the doubles; from the first double
  on, they are the least and the greatest of them (`spanFrom_extremes`).
* `foldl_span`: a range that is widened axis by axis.
* `spanFrom_infinity_lt`: from the infinities on, the least is below the greatest exactly if two of the
  doubles differ.
-/

namespace ShiftMesh.Double

variable {x y a b : Float} {p : Float × Float} {xs : List Float}

/-! ## One comparison -/

theorem le_self (hx : x.isNaN = false) : x ≤ x := (le_iff hx hx).mpr le_rfl

theorem pickLess_spec (ha : a.isNaN = false) (hb : b.isNaN = false) :
    Scalar.pickLess a b ≤ a ∧ Scalar.pickLess a b ≤ b ∧
      (Scalar.pickLess a b = a ∨ Scalar.pickLess a b = b) := by
  unfold Scalar.pickLess
  split_ifs with h
  · exact ⟨le_self ha, (le_iff ha hb).mpr ((lt_iff ha hb).mp h).le, Or.inl rfl⟩
  · refine ⟨?_, le_self hb, Or.inr rfl⟩
    rw [lt_iff ha hb, not_lt] at h
    exact (le_iff hb ha).mpr h

theorem pickGreater_spec (ha : a.isNaN = false) (hb : b.isNaN = false) :
    a ≤ Scalar.pickGreater a b ∧ b ≤ Scalar.pickGreater a b ∧
      (Scalar.pickGreater a b = a ∨ Scalar.pickGreater a b = b) := by
  unfold Scalar.pickGreater
  split_ifs with h
  · exact ⟨le_self ha, (le_iff hb ha).mpr ((lt_iff hb ha).mp h).le, Or.inl rfl⟩
  · refine ⟨?_, le_self hb, Or.inr rfl⟩
    rw [lt_iff hb ha, not_lt] at h
    exact (le_iff ha hb).mpr h

/-! ## Lists -/

/-- The least and the greatest of doubles, from two doubles on. -/
def spanFrom (p : Float × Float) (xs : List Float) : Float × Float :=
  xs.foldl (fun p x => (Scalar.pickLess p.1 x, Scalar.pickGreater p.2 x)) p

/-- The two doubles `r` bound the doubles of a list, and each of them is in the list or the one of `p`. -/
structure Spans (p r : Float × Float) (xs : List Float) : Prop where
  low_start : r.1 ≤ p.1
  high_start : p.2 ≤ r.2
  low : ∀ x ∈ xs, r.1 ≤ x
  high : ∀ x ∈ xs, x ≤ r.2
  low_mem : r.1 = p.1 ∨ r.1 ∈ xs
  high_mem : r.2 = p.2 ∨ r.2 ∈ xs

theorem spanFrom_spans (hp : p.1.isNaN = false ∧ p.2.isNaN = false)
    (hxs : ∀ x ∈ xs, x.isNaN = false) : Spans p (spanFrom p xs) xs := by
  induction xs generalizing p with
  | nil =>
    exact ⟨le_self hp.1, le_self hp.2, List.forall_mem_nil _, List.forall_mem_nil _, Or.inl rfl,
      Or.inl rfl⟩
  | cons x rest ih =>
    obtain ⟨hx, hrest⟩ := List.forall_mem_cons.mp hxs
    obtain ⟨hlow, hlowx, hlowmem⟩ := pickLess_spec hp.1 hx
    obtain ⟨hhigh, hhighx, hhighmem⟩ := pickGreater_spec hp.2 hx
    obtain ⟨hstart, hstart', hall, hall', hmem, hmem'⟩ :=
      ih (p := (Scalar.pickLess p.1 x, Scalar.pickGreater p.2 x))
        ⟨(isNaN_of_le hlow).1, (isNaN_of_le hhigh).2⟩ hrest
    refine ⟨le_trans' hstart hlow, le_trans' hhigh hstart',
      List.forall_mem_cons.mpr ⟨le_trans' hstart hlowx, hall⟩,
      List.forall_mem_cons.mpr ⟨le_trans' hhighx hstart', hall'⟩, ?_, ?_⟩
    · rcases hmem with hmem | hmem
      · exact hlowmem.imp hmem.trans fun h => List.mem_cons.mpr (Or.inl (hmem.trans h))
      · exact Or.inr (List.mem_cons_of_mem _ hmem)
    · rcases hmem' with hmem | hmem
      · exact hhighmem.imp hmem.trans fun h => List.mem_cons.mpr (Or.inl (hmem.trans h))
      · exact Or.inr (List.mem_cons_of_mem _ hmem)

/-- A fold that widens a range by a double of each item. -/
theorem foldl_span {β γ : Type} (range : β → Float × Float) {f : β → γ → β} {axis : γ → Float}
    (h : ∀ b c, range (f b c) =
      (Scalar.pickLess (range b).1 (axis c), Scalar.pickGreater (range b).2 (axis c)))
    (cs : List γ) (b : β) : range (cs.foldl f b) = spanFrom (range b) (cs.map axis) := by
  induction cs generalizing b with
  | nil => rfl
  | cons c rest ih => rw [List.foldl_cons, ih, h, List.map_cons, spanFrom, spanFrom, List.foldl_cons]

/-- The two doubles are the least and the greatest of a list. -/
structure Extremes (r : Float × Float) (xs : List Float) : Prop where
  low : ∀ x ∈ xs, r.1 ≤ x
  high : ∀ x ∈ xs, x ≤ r.2
  low_mem : r.1 ∈ xs
  high_mem : r.2 ∈ xs

/-- From the first double on, the least and the greatest are found. -/
theorem spanFrom_extremes (hxs : ∀ y ∈ x :: xs, y.isNaN = false) :
    Extremes (spanFrom (x, x) xs) (x :: xs) := by
  obtain ⟨hx, hrest⟩ := List.forall_mem_cons.mp hxs
  have h := spanFrom_spans (p := (x, x)) ⟨hx, hx⟩ hrest
  exact ⟨List.forall_mem_cons.mpr ⟨h.low_start, h.low⟩, List.forall_mem_cons.mpr ⟨h.high_start, h.high⟩,
    List.mem_cons.mpr h.low_mem, List.mem_cons.mpr h.high_mem⟩

/-! ## From the infinities on -/

theorem abs_value_le_top (hx : x.isNaN = false) : |value x| ≤ top := by
  cases hfinite : x.isFinite with
  | true => exact (isFinite_iff.mp hfinite).2.le
  | false =>
    rcases not_finite_cases hfinite with hu | ⟨s, hu⟩
    · rw [isNaN_eq, hu] at hx
      cases hx
    · rw [value, hu, valueOf_infinity]
      cases s
      · exact (abs_neg top).trans_le (abs_of_pos top_pos).le
      · exact (abs_of_pos top_pos).le

theorem value_neg_infinity : (-infinity).isNaN = false ∧ value (-infinity) = -top := by
  obtain ⟨hnumber, hvalue⟩ := value_infinity
  exact ⟨(value_neg hnumber).1, by rw [(value_neg hnumber).2, hvalue]⟩

/-- Two doubles of a list differ exactly if the least is below the greatest. -/
theorem spanFrom_infinity_lt (hxs : ∀ x ∈ xs, x.isNaN = false) :
    (spanFrom (infinity, -infinity) xs).1 < (spanFrom (infinity, -infinity) xs).2 ↔
      ∃ x ∈ xs, ∃ y ∈ xs, (x == y) = false := by
  obtain ⟨htop, htopvalue⟩ := value_infinity
  obtain ⟨hbottom, hbottomvalue⟩ := value_neg_infinity
  have hspans := spanFrom_spans (p := (infinity, -infinity)) ⟨htop, hbottom⟩ hxs
  generalize spanFrom (infinity, -infinity) xs = r at hspans ⊢
  have hlow : r.1.isNaN = false := (isNaN_of_le hspans.low_start).1
  have hhigh : r.2.isNaN = false := (isNaN_of_le hspans.high_start).2
  rw [lt_iff hlow hhigh]
  refine ⟨fun hlt => ?_, ?_⟩
  · -- neither bound is the infinity that it starts from, as nothing lies beyond
    refine ⟨r.1, hspans.low_mem.resolve_left fun h => ?_, r.2,
      hspans.high_mem.resolve_left fun h => ?_, ?_⟩
    · rw [h, htopvalue] at hlt
      exact absurd ((le_abs_self _).trans (abs_value_le_top hhigh)) hlt.not_ge
    · rw [h, hbottomvalue] at hlt
      exact absurd (neg_le_of_abs_le (abs_value_le_top hlow)) hlt.not_ge
    · rw [← Bool.not_eq_true, beq_iff hlow hhigh]
      exact hlt.ne
  · rintro ⟨x, hx, y, hy, hne⟩
    have hbound : ∀ z ∈ xs, value r.1 ≤ value z ∧ value z ≤ value r.2 := fun z hz =>
      ⟨(le_iff hlow (hxs z hz)).mp (hspans.low z hz), (le_iff (hxs z hz) hhigh).mp (hspans.high z hz)⟩
    rw [← Bool.not_eq_true, beq_iff (hxs x hx) (hxs y hy)] at hne
    rcases lt_or_gt_of_ne hne with hlt | hlt
    · exact (hbound x hx).1.trans_lt (hlt.trans_le (hbound y hy).2)
    · exact (hbound y hy).1.trans_lt (hlt.trans_le (hbound x hx).2)

end ShiftMesh.Double
