import OutlierBand.Decimal.Text

namespace OutlierBand.Decimal

structure IsDigits (cs : List Char) : Prop where
  ne_nil : cs ≠ []
  isDigit : ∀ c ∈ cs, c.isDigit = true

inductive SpellsSign : List Char → Bool → Prop
  | none : SpellsSign [] false
  | minus : SpellsSign ['-'] true

inductive SpellsFraction : List Char → List Char → Prop
  | none : SpellsFraction [] []
  | point {digits : List Char} (h : IsDigits digits) : SpellsFraction ('.' :: digits) digits

inductive SpellsExponent : List Char → Int → Prop
  | none : SpellsExponent [] 0
  | plain {e : Char} {digits : List Char} (he : e = 'e' ∨ e = 'E') (h : IsDigits digits) :
    SpellsExponent (e :: digits) (Nat.ofDigitChars 10 digits 0)
  | plus {e : Char} {digits : List Char} (he : e = 'e' ∨ e = 'E') (h : IsDigits digits) :
    SpellsExponent (e :: '+' :: digits) (Nat.ofDigitChars 10 digits 0)
  | minus {e : Char} {digits : List Char} (he : e = 'e' ∨ e = 'E') (h : IsDigits digits) :
    SpellsExponent (e :: '-' :: digits) (-(Nat.ofDigitChars 10 digits 0 : Int))

inductive Spells : List Char → Decimal → Prop
  | parts {sign whole fraction digits power : List Char} {negative : Bool} {exponent : Int}
    (hsign : SpellsSign sign negative) (hwhole : IsDigits whole) (hzero : whole.head? = some '0' → whole = ['0'])
    (hfraction : SpellsFraction fraction digits) (hpower : SpellsExponent power exponent) :
    Spells (sign ++ (whole ++ (fraction ++ power)))
      ⟨negative, Nat.ofDigitChars 10 (whole ++ digits) 0, exponent - digits.length⟩

def Ends (rest : List Char) : Prop := ∀ c ∈ rest.head?, c.isDigit = false ∧ c ≠ '.' ∧ c ≠ 'e' ∧ c ≠ 'E'

theorem Spells.exists_cons {cs : List Char} {d : Decimal} (h : Spells cs d) :
    ∃ c rest, cs = c :: rest ∧ (c = '-' ∨ c.isDigit = true) := by
  obtain ⟨hsign, hwhole⟩ := h
  obtain ⟨c, rest, rfl⟩ := List.exists_cons_of_ne_nil hwhole.ne_nil
  cases hsign with
  | none => exact ⟨c, _, rfl, .inr (hwhole.isDigit c List.mem_cons_self)⟩
  | minus => exact ⟨_, _, rfl, .inl rfl⟩

theorem isWhole_iff {cs : List Char} : isWhole cs = true ↔ cs ≠ [] ∧ (cs.head? = some '0' → cs = ['0']) := by
  match cs with
  | [] => simp [isWhole]
  | [c] => simp [isWhole]
  | c :: d :: cs => simp [isWhole]

section

variable {digits rest : List Char}

theorem takeWhile_digits (h : ∀ c ∈ digits, c.isDigit = true) (hrest : ∀ c ∈ rest.head?, c.isDigit = false) :
    (digits ++ rest).takeWhile Char.isDigit = digits ∧ (digits ++ rest).dropWhile Char.isDigit = rest := by
  rw [List.takeWhile_append_of_pos h, List.dropWhile_append_of_pos h]
  cases rest with
  | nil => simp
  | cons c rest => simp [hrest c rfl]

theorem SpellsExponent.head {power : List Char} {exponent : Int} (h : SpellsExponent power exponent)
    (hrest : Ends rest) : ∀ c ∈ (power ++ rest).head?, c.isDigit = false ∧ c ≠ '.' := by
  cases h with
  | none => exact fun c hc => ⟨(hrest c hc).1, (hrest c hc).2.1⟩
  | plain he | plus he | minus he =>
    rintro c hc
    obtain rfl := Option.some.inj hc
    rcases he with rfl | rfl <;> decide

theorem SpellsFraction.head {fraction power : List Char} {exponent : Int} (h : SpellsFraction fraction digits)
    (hpower : SpellsExponent power exponent) (hrest : Ends rest) :
    ∀ c ∈ (fraction ++ (power ++ rest)).head?, c.isDigit = false := by
  cases h with
  | none => exact fun c hc => (hpower.head hrest c hc).1
  | point =>
    rintro c hc
    obtain rfl := Option.some.inj hc
    rfl

theorem readPower?_digits (h : IsDigits digits) (negative : Bool) (hrest : ∀ c ∈ rest.head?, c.isDigit = false) :
    readPower? negative (digits ++ rest) = some
      (if negative then -(Nat.ofDigitChars 10 digits 0 : Int) else Nat.ofDigitChars 10 digits 0, rest) := by
  obtain ⟨htake, hdrop⟩ := takeWhile_digits h.isDigit hrest
  rw [readPower?, htake, hdrop]
  exact if_neg h.ne_nil

theorem readExponent?_of_spells {power : List Char} {exponent : Int} (h : SpellsExponent power exponent)
    (hrest : Ends rest) : readExponent? (power ++ rest) = some (exponent, rest) := by
  have hdigit : ∀ c ∈ rest.head?, c.isDigit = false := fun c hc => (hrest c hc).1
  cases h with
  | none =>
    rw [List.nil_append]
    unfold readExponent?
    split <;> simp_all [Ends]
  | plain he h =>
    obtain ⟨d, ds, rfl⟩ := List.exists_cons_of_ne_nil h.ne_nil
    have hd := h.isDigit d List.mem_cons_self
    apply Eq.trans _ (readPower?_digits h false hdigit)
    -- The digit is no sign, so neither of the signed forms applies.
    rcases he with rfl | rfl <;>
    · unfold readExponent?
      split <;> simp_all
  | plus he h =>
    rcases he with rfl | rfl <;> exact readPower?_digits h false hdigit
  | minus he h =>
    rcases he with rfl | rfl <;> exact readPower?_digits h true hdigit

theorem readFraction?_of_spells {fraction : List Char} (h : SpellsFraction fraction digits)
    (hrest : ∀ c ∈ rest.head?, c.isDigit = false ∧ c ≠ '.') :
    readFraction? (fraction ++ rest) = some (digits, rest) := by
  cases h with
  | none =>
    rw [List.nil_append]
    unfold readFraction?
    split <;> simp_all
  | point h =>
    obtain ⟨htake, hdrop⟩ := takeWhile_digits h.isDigit fun c hc => (hrest c hc).1
    rw [List.cons_append, readFraction?, htake, hdrop]
    exact if_neg h.ne_nil

theorem read?_of_spells {cs : List Char} {d : Decimal} (h : Spells cs d) (hrest : Ends rest) :
    read? (cs ++ rest) = some (d, rest) := by
  obtain @⟨sign, whole, fraction, digits, power, negative, exponent, hsign, hwhole, hzero, hfraction, hpower⟩ := h
  have hunsigned : readUnsigned? negative (whole ++ (fraction ++ (power ++ rest))) =
      some (⟨negative, Nat.ofDigitChars 10 (whole ++ digits) 0, exponent - digits.length⟩, rest) := by
    obtain ⟨htake, hdrop⟩ := takeWhile_digits hwhole.isDigit (hfraction.head hpower hrest)
    rw [readUnsigned?, htake, hdrop, readFraction?_of_spells hfraction (hpower.head hrest)]
    simp only [bind, Option.bind_some, readExponent?_of_spells hpower hrest]
    exact if_pos (isWhole_iff.2 ⟨hwhole.ne_nil, hzero⟩)
  simp only [List.append_assoc]
  cases hsign with
  | none =>
    obtain ⟨d, ds, rfl⟩ := List.exists_cons_of_ne_nil hwhole.ne_nil
    have hd := hwhole.isDigit d List.mem_cons_self
    rw [← hunsigned, List.nil_append]
    unfold read?
    split <;> simp_all
  | minus => exact hunsigned

theorem isDigits_takeWhile {cs : List Char} (h : cs.takeWhile Char.isDigit ≠ []) :
    IsDigits (cs.takeWhile Char.isDigit) := ⟨h, List.all_eq_true.1 List.all_takeWhile⟩

end

section

variable {cs rest : List Char}

theorem spells_of_readPower? {negative : Bool} {exponent : Int} (h : readPower? negative cs = some (exponent, rest)) :
    ∃ digits, IsDigits digits ∧ cs = digits ++ rest ∧
      exponent = if negative then -(Nat.ofDigitChars 10 digits 0 : Int) else Nat.ofDigitChars 10 digits 0 := by
  simp only [readPower?] at h
  split at h
  · cases h
  · cases h
    exact ⟨_, isDigits_takeWhile ‹_›, List.takeWhile_append_dropWhile.symm, rfl⟩

theorem spells_of_readExponent? {exponent : Int} (h : readExponent? cs = some (exponent, rest)) :
    ∃ power, cs = power ++ rest ∧ SpellsExponent power exponent := by
  unfold readExponent? at h
  split at h
  case h_1 | h_2 =>
    obtain ⟨digits, hdigits, rfl, rfl⟩ := spells_of_readPower? h
    exact ⟨_, rfl, .minus (by decide) hdigits⟩
  case h_3 | h_4 =>
    obtain ⟨digits, hdigits, rfl, rfl⟩ := spells_of_readPower? h
    exact ⟨_, rfl, .plus (by decide) hdigits⟩
  case h_5 | h_6 =>
    obtain ⟨digits, hdigits, rfl, rfl⟩ := spells_of_readPower? h
    exact ⟨_, rfl, .plain (by decide) hdigits⟩
  case h_7 =>
    cases h
    exact ⟨[], rfl, .none⟩

theorem spells_of_readFraction? {digits : List Char} (h : readFraction? cs = some (digits, rest)) :
    ∃ fraction, cs = fraction ++ rest ∧ SpellsFraction fraction digits := by
  unfold readFraction? at h
  split at h
  · split at h
    · cases h
    · cases h
      exact ⟨_, congrArg _ List.takeWhile_append_dropWhile.symm, .point (isDigits_takeWhile ‹_›)⟩
  · cases h
    exact ⟨[], rfl, .none⟩

theorem spells_of_readUnsigned? {negative : Bool} {sign : List Char} (hsign : SpellsSign sign negative) {d : Decimal}
    (h : readUnsigned? negative cs = some (d, rest)) : ∃ body, sign ++ cs = body ++ rest ∧ Spells body d := by
  simp only [readUnsigned?] at h
  split at h
  next hwhole =>
    simp only [bind, Option.bind_eq_some_iff, Prod.exists] at h
    obtain ⟨digits, after, hreadFraction, exponent, after', hreadPower, h⟩ := h
    cases h
    obtain ⟨fraction, hcs, hfraction⟩ := spells_of_readFraction? hreadFraction
    obtain ⟨power, rfl, hpower⟩ := spells_of_readExponent? hreadPower
    obtain ⟨hne, hzero⟩ := isWhole_iff.1 hwhole
    refine ⟨_, ?_, .parts hsign (isDigits_takeWhile hne) hzero hfraction hpower⟩
    rw [List.append_assoc, List.append_assoc, List.append_assoc, ← hcs, List.takeWhile_append_dropWhile]
  next => cases h

theorem spells_of_read? {d : Decimal} (h : read? cs = some (d, rest)) : ∃ body, cs = body ++ rest ∧ Spells body d := by
  unfold read? at h
  split at h
  · exact spells_of_readUnsigned? .minus h
  · exact spells_of_readUnsigned? .none h

end

end OutlierBand.Decimal
