import OutlierBand.Prediction
import OutlierBand.Proofs.FittedBand
import OutlierBand.Proofs.InlierShare

namespace OutlierBand

open Binary64

namespace Feature

def Admits (f : Feature) (x : Binary64) : Prop := zero < f.tolerance ∧ (x - f.centre).abs ≤ f.tolerance

instance (f : Feature) (x : Binary64) : Decidable (f.Admits x) := inferInstanceAs (Decidable (_ ∧ _))

theorem excess_le_one_iff {f : Feature} (h : ∃ n, f.tolerance = finite false n) (x : Binary64) :
    f.excess x ≤ one ↔ f.Admits x := by
  obtain ⟨n, hn⟩ := h
  rw [excess, Admits, hn]
  exact multiple_le_one_iff _ n

theorem abs_sub_le_of_value {f : Feature} (hcentre : f.centre.isFinite = true)
    (h : ∃ n, f.tolerance = finite false n) {x : Binary64} (hx : x.isFinite = true)
    (hdistance : |x.value - f.centre.value| ≤ f.tolerance.value) : (x - f.centre).abs ≤ f.tolerance := by
  obtain ⟨n, hn⟩ := h
  obtain ⟨z, hz⟩ := exists_sub_eq_nearest hx hcentre
  have hround := abs_nearest_le false z hdistance
  rwa [hn, nearest_value, ← hz, ← hn] at hround

end Feature

namespace Band

variable {c : Config} {s : Binary64} {xs : Samples} {b : Band}

/-- A row is an inlier exactly when it has a number for each feature and each feature admits its number. Where every
tolerance is above zero, a row whose exact distances are within the tolerances is in the band. -/
theorem contains_iff_admits (hc : c.validate = .ok ()) (h : fit xs s c = .ok b) (x : List Binary64) :
    (b.contains x = true ↔ Label.ofScore (b.score x) = .inlier) ∧
      (b.contains x = true ↔ x.length = b.width ∧ ∀ v ∈ b.features.zip x, v.1.Admits v.2) ∧
      ((∀ f ∈ b.features, zero < f.tolerance) → x.length = b.width →
        (∀ v ∈ b.features.zip x, v.2.isFinite = true ∧ |v.2.value - v.1.centre.value| ≤ v.1.tolerance.value) →
        b.contains x = true) := by
  have hadmits : b.contains x = true ↔ x.length = b.width ∧ ∀ v ∈ b.features.zip x, v.1.Admits v.2 := by
    rw [contains_iff, forall_mem_zipWith_iff]
    apply and_congr_right'
    apply forall₂_congr
    intro v hv
    exact Feature.excess_le_one_iff (exists_tolerance_of_fit hc h (List.of_mem_zip hv).1).2 v.2
  refine ⟨?_, hadmits, ?_⟩
  · rw [Label.ofScore_eq_inlier_iff, contains, decide_eq_true_eq]
  · intro hroom hlength hdistance
    rw [hadmits]
    refine ⟨hlength, fun v hv => ?_⟩
    have hf := (List.of_mem_zip hv).1
    obtain ⟨hcentre, htolerance⟩ := exists_tolerance_of_fit hc h hf
    obtain ⟨hx, hwithin⟩ := hdistance v hv
    exact ⟨hroom v.1 hf, Feature.abs_sub_le_of_value hcentre htolerance hx hwithin⟩

theorem contains_iff_admits_one :
    let samples : Samples := ⟨1, 1, [one], .rowMajor, rfl⟩
    Config.default.validate = .ok () ∧ ∃ b, fit samples (one / two) .default = .ok b ∧
      b.contains [one / two] = true ∧ b.contains [neg (one / two)] = false ∧ b.contains [nan false] = false := by
  intro samples
  have hc : Config.default.validate = .ok () := by decide +kernel
  have h : fit samples (one / two) .default = .ok ⟨[⟨one, one / two⟩], one / two, 1⟩ := by decide +kernel
  refine ⟨hc, _, h, ?_, ?_, ?_⟩
  · exact (contains_iff_admits hc h [one / two]).2.1.2 (by decide +kernel)
  · rw [← Bool.not_eq_true, (contains_iff_admits hc h _).2.1]
    decide +kernel
  · rw [← Bool.not_eq_true, (contains_iff_admits hc h _).2.1]
    decide +kernel

end Band

end OutlierBand
