import OutlierBand.Proofs.FitOutcome
import OutlierBand.Proofs.ReportMessages
import OutlierBand.Proofs.ShortestDecimal

namespace OutlierBand

namespace Decimal

theorem positional_of_mem_positional {d : Decimal} : ∀ c ∈ d.positional, c = '.' ∨ c.isDigit = true := by
  intro c hc
  unfold positional at hc
  split_ifs at hc with h
  · obtain ⟨whole, fraction, hchars, -, hwhole, hfraction, -⟩ :=
      exists_withPoint d.significand (Int.pos_iff_toNat_pos.1 (Int.neg_pos_of_neg h))
    rw [hchars, List.mem_append, List.mem_cons] at hc
    rcases hc with hc | hc | hc
    · exact .inr (hwhole.isDigit c hc)
    · exact .inl hc
    · exact .inr (hfraction.isDigit c hc)
  · exact .inr ((isDigits_toDigits _).isDigit c hc)

theorem positional_of_mem_chars {d : Decimal} : ∀ c ∈ d.chars, c = '-' ∨ c = '.' ∨ c.isDigit = true := by
  intro c hc
  unfold chars at hc
  split_ifs at hc
  · rcases List.mem_cons.1 hc with hc | hc
    · exact .inl hc
    · exact .inr (positional_of_mem_positional c hc)
  · exact .inr (positional_of_mem_positional c hc)

theorem mod_ten_ne_zero_of_spread_shortest {s : Bool} {m : Binary64.Magnitude}
    (h : (shortest s m).spread.exponent < 0) : (shortest s m).spread.significand % 10 ≠ 0 := by
  have hspread : (shortest s m).exponent < 0 := by
    by_contra hle
    rw [spread, if_neg hle] at h
    exact absurd h (lt_irrefl 0)
  have h0 : m.units ≠ 0 := by
    intro h0
    rw [shortest, if_pos h0] at hspread
    exact absurd hspread (lt_irrefl 0)
  rw [spread, if_pos hspread]
  exact (isCoarsest_shortest h0 s).mod_ten_ne_zero

end Decimal

/-- The text writes out the decimal without an exponent, the decimal denotes the number, and it has no digit too many. -/
structure Faithful (x : Binary64) (text : String) (d : Decimal) : Prop where
  read : Decimal.read? text.toList = some (d, [])
  positional : ∀ c ∈ text.toList, c = '-' ∨ c = '.' ∨ c.isDigit = true
  denotes : d.toBinary64 = x
  trimmed : d.exponent < 0 → d.significand % 10 ≠ 0
  shortest : ∀ e : Decimal, e.toBinary64 = x → d.significantDigits ≤ e.significantDigits

namespace Binary64

theorem exists_faithful {x : Binary64} (h : x.isFinite = true) : ∃ d, Faithful x x.text d := by
  obtain ⟨s, m, rfl⟩ := exists_finite h
  have hchars : (finite s m).text.toList = (Decimal.shortest s m).chars := String.toList_ofList
  refine ⟨(Decimal.shortest s m).spread, ?_, ?_, ?_, Decimal.mod_ten_ne_zero_of_spread_shortest, ?_⟩
  · have hread : Decimal.read? ((Decimal.shortest s m).chars ++ []) = some ((Decimal.shortest s m).spread, []) :=
      Decimal.read?_of_spells (Decimal.spells_chars _) (by simp [Decimal.Ends])
    rwa [List.append_nil, ← hchars] at hread
  · rw [hchars]
    exact Decimal.positional_of_mem_chars
  · rw [Decimal.toBinary64_spread, Decimal.toBinary64_shortest]
  · intro e he
    rw [Decimal.significantDigits_spread]
    exact Decimal.significantDigits_shortest_le he

theorem eq_of_text_eq {x y : Binary64} (hx : x.isFinite = true) (h : y.text = x.text) : y = x := by
  obtain ⟨d, hd⟩ := exists_faithful hx
  have hread := hd.read
  rw [← h] at hread
  cases y with
  | nan =>
    have hnone : Decimal.read? "NaN".toList = none := by decide +kernel
    exact absurd (hnone.symm.trans hread) (by simp)
  | infinite s =>
    have hnone : ∀ s, Decimal.read? (infinite s).text.toList = none := by decide +kernel
    exact absurd ((hnone s).symm.trans hread) (by simp)
  | finite s m =>
    obtain ⟨e, he⟩ := exists_faithful (x := finite s m) rfl
    obtain ⟨rfl, -⟩ := Prod.mk.inj (Option.some.inj (he.read.symm.trans hread))
    exact he.denotes.symm.trans hd.denotes

end Binary64

inductive Parameter where
  | sensitivity
  | deviationScale
  | minTolerance

namespace Parameter

def name : Parameter → String
  | sensitivity => "sensitivity"
  | deviationScale => "deviation_scale"
  | minTolerance => "min_tolerance"

def demand : Parameter → String
  | sensitivity => "must be in (0, 1), got "
  | deviationScale => "must be finite and non-negative, got "
  | minTolerance => "must be finite and positive, got "

inductive Refuses : Parameter → Binary64 → Report → Prop
  | sensitivity {x : Binary64} {r : Report} (h : told (checkSensitivity x) = some r) : Refuses sensitivity x r
  | deviationScale {c : Config} {r : Report} (hscale : ¬(c.deviationScale.isFinite = true ∧ ¬c.deviationScale < .zero))
    (h : told c.validate = some r) : Refuses deviationScale c.deviationScale r
  | minTolerance {c : Config} {r : Report} (hscale : c.deviationScale.isFinite = true ∧ ¬c.deviationScale < .zero)
    (h : told c.validate = some r) : Refuses minTolerance c.minTolerance r

theorem name_injective : Function.Injective name := by
  intro p q h
  cases p <;> cases q <;> first | rfl | exact absurd h (by decide)

variable {p : Parameter} {x : Binary64} {r : Report}

theorem Refuses.report_eq (h : p.Refuses x r) : r = .invalidParameter p.name (p.demand ++ x.text) := by
  cases h with
  | sensitivity h => exact (told_checkSensitivity.1 h).2
  | deviationScale hscale h =>
    unfold Config.validate at h
    split_ifs at h with hbad
    · exact (Option.some.inj h).symm
    all_goals
      simp only [Bool.not_eq_true', not_or, Bool.not_eq_false] at hbad
      exact absurd hbad hscale
  | minTolerance hscale h =>
    unfold Config.validate at h
    split_ifs at h with hbad
    · simp only [Bool.not_eq_true'] at hbad
      rcases hbad with hbad | hbad
      · exact absurd hscale.1 (by simp [hbad])
      · exact absurd hbad hscale.2
    · exact (Option.some.inj h).symm
    · cases h

theorem Refuses.namedInOneWord (h : p.Refuses x r) : r.NamedInOneWord := by
  cases h with
  | sensitivity h => exact (Raised.sensitivity h).namedInOneWord
  | deviationScale _ h | minTolerance _ h => exact (Raised.config h).namedInOneWord

theorem Refuses.eq_of_message_eq {q : Parameter} {y : Binary64} {r' : Report} (hr : p.Refuses x r) (hr' : q.Refuses y r')
    (hx : x.isFinite = true) (h : r'.message = r.message) : q = p ∧ y = x := by
  have hreports := Report.message_injective hr'.namedInOneWord hr.namedInOneWord h
  rw [hr.report_eq, hr'.report_eq] at hreports
  obtain ⟨hname, hreason⟩ := Report.invalidParameter.inj hreports
  obtain rfl := name_injective hname
  exact ⟨rfl, Binary64.eq_of_text_eq hx ((String.append_right_inj _).1 hreason)⟩

/-- A finite number that is refused is written into the report so that it reads back, sign of a zero included, and as
shortly as any decimal can be that does. No other number is refused in these words. -/
theorem refused_number_faithful (h : p.Refuses x r) (hx : x.isFinite = true) :
    ∃ text d, r = .invalidParameter p.name (p.demand ++ text) ∧ Faithful x text d ∧
      ∀ q y r', q.Refuses y r' → r'.message = r.message → q = p ∧ y = x := by
  obtain ⟨d, hd⟩ := Binary64.exists_faithful hx
  refine ⟨x.text, d, h.report_eq, hd, ?_⟩
  intro q y r' h' hmessage
  exact h.eq_of_message_eq h' hx hmessage

theorem refused_number_faithful_minus_zero :
    let x : Binary64 := .finite true .zero
    let r := Report.invalidParameter "min_tolerance" "must be finite and positive, got -0"
    minTolerance.Refuses x r ∧ x.isFinite = true ∧
      (∃ text d, r = .invalidParameter minTolerance.name (minTolerance.demand ++ text) ∧ Faithful x text d) ∧
        ∀ q y r', q.Refuses y r' → r'.message = r.message → q = minTolerance ∧ y = x := by
  intro x r
  have hrefuses : minTolerance.Refuses x r :=
    .minTolerance (c := ⟨.one, x, .mean⟩) (by decide +kernel) (by decide +kernel)
  obtain ⟨text, d, hr, hd, hother⟩ := refused_number_faithful hrefuses rfl
  exact ⟨hrefuses, rfl, ⟨text, d, hr, hd⟩, hother⟩

end Parameter

end OutlierBand
