import OutlierBand.Proofs.ConfigDecoding
import OutlierBand.Proofs.WrittenText

namespace OutlierBand

open Binary64

namespace Json

theorem MeansNumber.isFinite {v : Json} {x : Binary64} (h : v.MeansNumber x) : x.isFinite = true := by
  cases h
  assumption

theorem MeansNumber.eq {v : Json} {x y : Binary64} (hx : v.MeansNumber x) (hy : v.MeansNumber y) : x = y := by
  cases hx
  cases hy
  rfl

theorem meansStatistic_name_iff {s t : Statistic} : (Json.string (some s.name)).MeansStatistic t ↔ t = s := by
  rw [← Statistic.ofJson?_eq_some_iff, Statistic.ofJson?, Statistic.ofName?_name, Option.some.injEq, eq_comm]

inductive Writes : Binary64 → Json → Prop
  | finite {x : Binary64} {v : Json} (h : v.MeansNumber x) : Writes x v
  | null {x : Binary64} (h : x.isFinite = false) : Writes x .null

theorem Writes.means_iff {x y : Binary64} {v : Json} (h : Writes x v) :
    v.MeansNumber y ↔ y = x ∧ x.isFinite = true := by
  cases h with
  | finite h => exact ⟨fun hy => ⟨hy.eq h, h.isFinite⟩, fun hy => hy.1 ▸ h⟩
  | null h =>
    rw [h]
    refine iff_of_false (fun hy => ?_) (by simp)
    cases hy

theorem writes_toJson (x : Binary64) : Writes x x.toJson.spread := by
  cases x with
  | nan => exact .null rfl
  | infinite => exact .null rfl
  | finite s m =>
    apply Writes.finite
    rw [← Binary64.ofJson?_eq_some_iff, toJson, spread, Binary64.ofJson?, Decimal.toBinary64_spread,
      Decimal.toBinary64_shortest]
    rfl

end Json

namespace Config

def AllFinite (c : Config) : Prop := c.deviationScale.isFinite = true ∧ c.minTolerance.isFinite = true

def fields (scale tolerance reference : Json) : List (JsonText × Json) :=
  [(some "deviation_scale", scale), (some "min_tolerance", tolerance), (some "reference", reference)]

inductive Written (c : Config) (text : String) : Prop
  | fields {scale tolerance : Json} (hscale : Json.Writes c.deviationScale scale)
    (htolerance : Json.Writes c.minTolerance tolerance)
    (htext : Json.IsText text (.object (fields scale tolerance (.string (some c.reference.name)))))

theorem written_toText (c : Config) : c.Written c.toText :=
  .fields (Json.writes_toJson _) (Json.writes_toJson _) c.toJson.isText_text

theorem ofMembers?_fields {scale tolerance reference : Json} {c : Config} :
    ofMembers? (fields scale tolerance reference) = some c ↔ scale.MeansNumber c.deviationScale ∧
      tolerance.MeansNumber c.minTolerance ∧ reference.MeansStatistic c.reference := by
  have honce : ∀ name ∈ fieldNames, Once (fields scale tolerance reference) name := by
    simp [fieldNames, Once, fields, List.countP_cons]
  have hscale : (fields scale tolerance reference).filter (·.1 = some "deviation_scale") =
      [(some "deviation_scale", scale)] := by simp [fields]
  have htolerance : (fields scale tolerance reference).filter (·.1 = some "min_tolerance") =
      [(some "min_tolerance", tolerance)] := by simp [fields]
  have hreference : (fields scale tolerance reference).filter (·.1 = some "reference") =
      [(some "reference", reference)] := by simp [fields]
  rw [ofMembers?_eq_some_iff, and_iff_right (by simp [fields]), and_iff_right honce]
  constructor
  · intro h
    exact ⟨(takes_of_single hscale).1 h.deviationScale, (takes_of_single htolerance).1 h.minTolerance,
      (takes_of_single hreference).1 h.reference⟩
  · rintro ⟨hs, ht, hr⟩
    exact ⟨(takes_of_single hscale).2 hs, (takes_of_single htolerance).2 ht, (takes_of_single hreference).2 hr⟩

theorem Written.ofText?_iff {c d : Config} {text : String} (h : c.Written text) :
    ofText? text = some d ↔ d = c ∧ c.AllFinite := by
  obtain ⟨hscale, htolerance, htext⟩ := h
  rw [ofText?_of_isText htext, ofJson?, ofMembers?_fields, hscale.means_iff, htolerance.means_iff,
    Json.meansStatistic_name_iff]
  constructor
  · rintro ⟨⟨hs, hsfinite⟩, ⟨ht, htfinite⟩, hr⟩
    refine ⟨?_, hsfinite, htfinite⟩
    cases c
    cases d
    cases hs
    cases ht
    cases hr
    rfl
  · rintro ⟨rfl, hs, ht⟩
    exact ⟨⟨rfl, hs⟩, ⟨rfl, ht⟩, rfl⟩

section

variable {members : List (JsonText × Json)} {c : Config} {text : String}

theorem Takes.isFinite {name : String} {absent x : Binary64} (h : Takes members name Json.MeansNumber absent x)
    (habsent : absent.isFinite = true) : x.isFinite = true := by
  by_cases hgiven : ∃ v, (some name, v) ∈ members
  · obtain ⟨v, hv⟩ := hgiven
    exact (h.given v hv).isFinite
  · rwa [h.absent (not_exists.1 hgiven)]

theorem exists_ofMembers? (h : ofText? text = some c) : ∃ members, ofMembers? members = some c := by
  obtain ⟨v, -, hv⟩ := Option.bind_eq_some_iff.1 h
  unfold ofJson? at hv
  split at hv
  · exact ⟨_, hv⟩
  · split at hv
    · exact ⟨_, hv⟩
    · cases hv
  · cases hv

theorem allFinite_of_ofText? (h : ofText? text = some c) : c.AllFinite := by
  obtain ⟨members, hmembers⟩ := exists_ofMembers? h
  obtain ⟨-, -, htaken⟩ := ofMembers?_eq_some_iff.1 hmembers
  exact ⟨htaken.deviationScale.isFinite (isFinite_ofNat (by decide)), htaken.minTolerance.isFinite isFinite_one⟩

theorem AllFinite.of_validate {fault : Fault} (hc : c.AllFinite) (h : c.validate = .error fault) :
    fault = .deviationScale c.deviationScale ∧ c.deviationScale < .zero ∨
      fault = .minTolerance c.minTolerance ∧ c.minTolerance ≤ .zero := by
  obtain ⟨hscale, htolerance⟩ := hc
  unfold validate at h
  rw [hscale, htolerance] at h
  grind

end

/-- Written configurations are read back if and only if their numbers are finite, as they are in all that is read. So
what has been read is read again from whatever it is written as, and it can only be refused for a sign or a zero. -/
theorem reads_back :
    (∀ c : Config, c.Written c.toText) ∧
    (∀ (c : Config) text, c.Written text →
      (ofText? text = some c ↔ c.deviationScale.isFinite = true ∧ c.minTolerance.isFinite = true) ∧
      (¬(c.deviationScale.isFinite = true ∧ c.minTolerance.isFinite = true) → ofText? text = none)) ∧
    ∀ text c, ofText? text = some c →
      (c.deviationScale.isFinite = true ∧ c.minTolerance.isFinite = true) ∧
      (∀ text', c.Written text' → ofText? text' = some c) ∧
      ∀ fault, c.validate = .error fault →
        fault = .deviationScale c.deviationScale ∧ c.deviationScale < .zero ∨
          fault = .minTolerance c.minTolerance ∧ c.minTolerance ≤ .zero := by
  refine ⟨written_toText, fun c text hwritten => ⟨?_, fun hfinite => ?_⟩, fun text c hread => ?_⟩
  · rw [hwritten.ofText?_iff, and_iff_right rfl]
    rfl
  · refine Option.eq_none_iff_forall_ne_some.2 fun d hd => hfinite ?_
    exact (hwritten.ofText?_iff.1 hd).2
  · have hfinite := allFinite_of_ofText? hread
    exact ⟨hfinite, fun text' hwritten => hwritten.ofText?_iff.2 ⟨rfl, hfinite⟩, fun fault => hfinite.of_validate⟩

theorem reads_back_minus_zero :
    ofText? "\x7b\"deviation_scale\":-0.0,\"min_tolerance\":1e-400,\"reference\":\x7b\"median\":null\x7d\x7d" =
      some ⟨-.zero, .zero, .median⟩ ∧
    Written ⟨-.zero, .zero, .median⟩ "\x7b\"deviation_scale\":-0,\"min_tolerance\":0,\"reference\":\"median\"\x7d" ∧
    ofText? "\x7b\"deviation_scale\":-0,\"min_tolerance\":0,\"reference\":\"median\"\x7d" =
      some ⟨-.zero, .zero, .median⟩ ∧
    (validate ⟨-.zero, .zero, .median⟩ = .error (.minTolerance .zero) ∧ zero ≤ .zero) ∧
    Written ⟨.infinity, .zero, .mean⟩ "\x7b\"deviation_scale\":null,\"min_tolerance\":0,\"reference\":\"mean\"\x7d" ∧
    ofText? "\x7b\"deviation_scale\":null,\"min_tolerance\":0,\"reference\":\"mean\"\x7d" = none := by
  have hzero : (Json.number ⟨false, 0, 0⟩).MeansNumber zero := Binary64.ofJson?_eq_some_iff.1 rfl
  have hminus (e : Int) : (Json.number ⟨true, 0, e⟩).MeansNumber (-zero) := Binary64.ofJson?_eq_some_iff.1 rfl
  have hsmall : (Json.number ⟨false, 1, -400⟩).MeansNumber zero := Binary64.ofJson?_eq_some_iff.1 (by decide +kernel)
  have hgiven : ofText?
      "\x7b\"deviation_scale\":-0.0,\"min_tolerance\":1e-400,\"reference\":\x7b\"median\":null\x7d\x7d" =
      some ⟨-.zero, .zero, .median⟩ := by
    have htext : Json.IsText
        "\x7b\"deviation_scale\":-0.0,\"min_tolerance\":1e-400,\"reference\":\x7b\"median\":null\x7d\x7d"
        (.object (fields (.number ⟨true, 0, -1⟩) (.number ⟨false, 1, -400⟩) (.object [(some "median", .null)]))) :=
      Json.Token.spellsAll_of_readAll? (by decide +kernel)
    rw [ofText?_of_isText htext]
    exact ofMembers?_fields.2 ⟨hminus _, hsmall, .member .median⟩
  have hwritten : Written ⟨-.zero, .zero, .median⟩
      "\x7b\"deviation_scale\":-0,\"min_tolerance\":0,\"reference\":\"median\"\x7d" :=
    .fields (.finite (hminus 0)) (.finite hzero) (Json.Token.spellsAll_of_readAll? (by decide +kernel))
  have hnull : Written ⟨.infinity, .zero, .mean⟩
      "\x7b\"deviation_scale\":null,\"min_tolerance\":0,\"reference\":\"mean\"\x7d" :=
    .fields (.null rfl) (.finite hzero) (Json.Token.spellsAll_of_readAll? (by decide +kernel))
  obtain ⟨-, hback, hread⟩ := reads_back
  obtain ⟨-, hagain, hfault⟩ := hread _ _ hgiven
  have hinvalid : validate ⟨-.zero, .zero, .median⟩ = .error (.minTolerance .zero) := by decide +kernel
  refine ⟨hgiven, hwritten, hagain _ hwritten, ⟨hinvalid, ?_⟩, hnull, (hback _ _ hnull).2 ?_⟩
  · rcases hfault _ hinvalid with ⟨h, -⟩ | ⟨-, h⟩
    · cases h
    · exact h
  · rintro ⟨h, -⟩
    cases h

end Config

end OutlierBand
