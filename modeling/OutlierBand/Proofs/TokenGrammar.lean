import OutlierBand.Json.Token
import OutlierBand.Proofs.NumberGrammar
import Mathlib.Data.List.Chain

namespace OutlierBand.Json

namespace Piece

inductive Spells : List Char → Piece → Prop
  | plain {c : Char} (hcontrol : 0x20 ≤ c.toNat) (hquote : c ≠ '"') (hslash : c ≠ '\\') : Spells [c] (.char c)
  | escape {e c : Char} (h : escaped? e = some c) : Spells ['\\', e] (.char c)
  | unit {a b c d : Char} {n : Nat} (h : unit? a b c d = some n) : Spells ['\\', 'u', a, b, c, d] (.ofUnit n)

inductive SpellsAll : List Char → List Piece → Prop
  | nil : SpellsAll [] []
  | cons {cs rest : List Char} {p : Piece} {ps : List Piece} (hp : Spells cs p) (hps : SpellsAll rest ps) :
    SpellsAll (cs ++ rest) (p :: ps)

end Piece

theorem readPieces?_of_spells {body : List Char} {ps : List Piece} (h : Piece.SpellsAll body ps) (rest : List Char) :
    readPieces? (body ++ '"' :: rest) = some (ps, rest) := by
  induction h with
  | nil => rfl
  | @cons cs tail p ps hp _ ih =>
    rw [List.append_assoc]
    generalize tail ++ '"' :: rest = after at *
    cases hp with
    | plain hcontrol hquote hslash => simp [readPieces?, hslash, Nat.not_lt.2 hcontrol, ih, prepend?]
    | @escape e c he =>
      have hu : e ≠ 'u' := by
        rintro rfl
        cases he
      simp [readPieces?, he, hu, ih, prepend?]
    | unit hn => simp [readPieces?, hn, ih, prepend?]

theorem spells_of_prepend? (cs : List Char) {p : Option Piece} {rest tail : List Char} {ps : List Piece}
    (hp : ∀ q, p = some q → Piece.Spells cs q)
    (ih : ∀ qs, readPieces? tail = some (qs, rest) → ∃ body, tail = body ++ '"' :: rest ∧ Piece.SpellsAll body qs)
    (h : prepend? p (readPieces? tail) = some (ps, rest)) :
    ∃ body, cs ++ tail = body ++ '"' :: rest ∧ Piece.SpellsAll body ps := by
  unfold prepend? at h
  split at h
  next q qs rest' hr =>
    cases h
    obtain ⟨body, rfl, hbody⟩ := ih _ hr
    exact ⟨_, (List.append_assoc ..).symm, .cons (hp _ rfl) hbody⟩
  next => cases h

theorem spells_of_readPieces? {cs rest : List Char} {ps : List Piece} (h : readPieces? cs = some (ps, rest)) :
    ∃ body, cs = body ++ '"' :: rest ∧ Piece.SpellsAll body ps := by
  fun_induction readPieces? cs generalizing ps with
  | case1 => cases h
  | case2 cs =>
    cases h
    exact ⟨[], rfl, .nil⟩
  | case3 a b c d cs ih =>
    apply spells_of_prepend? ['\\', 'u', a, b, c, d] _ (fun _ => ih) h
    intro q hq
    obtain ⟨n, hn, rfl⟩ := Option.map_eq_some_iff.1 hq
    exact .unit hn
  | case4 e cs _ ih =>
    apply spells_of_prepend? ['\\', e] _ (fun _ => ih) h
    intro q hq
    obtain ⟨c, hc, rfl⟩ := Option.map_eq_some_iff.1 hq
    exact .escape hc
  | case5 => cases h
  | case6 c cs hquote _ hescape hcontrol ih =>
    have hslash : c ≠ '\\' := by
      rintro rfl
      cases cs with
      | nil => cases h
      | cons e cs => exact hescape e cs rfl rfl
    apply spells_of_prepend? [c] _ (fun _ => ih) h
    intro q hq
    cases hq
    exact .plain (Nat.not_lt.1 hcontrol) hquote hslash

namespace Token

def isNumber : Token → Bool
  | number _ => true
  | _ => false

inductive Spells : List Char → Token → Prop
  | openArray : Spells ['['] .openArray
  | closeArray : Spells [']'] .closeArray
  | openObject : Spells ['\x7b'] .openObject
  | closeObject : Spells ['\x7d'] .closeObject
  | comma : Spells [','] .comma
  | colon : Spells [':'] .colon
  | null : Spells ['n', 'u', 'l', 'l'] .null
  | bool {b : Bool} : Spells (if b then ['t', 'r', 'u', 'e'] else ['f', 'a', 'l', 's', 'e']) (.bool b)
  | number {cs : List Char} {d : Decimal} (h : Decimal.Spells cs d) : Spells cs (.number d)
  | string {body : List Char} {ps : List Piece} (h : Piece.SpellsAll body ps) :
    Spells ('"' :: (body ++ ['"'])) (.string ((Piece.join? ps).map .ofList))

inductive SpellsAll : List Char → List Token → Prop
  | nil {blanks : List Char} (h : ∀ c ∈ blanks, isBlank c = true) : SpellsAll blanks []
  | cons {blanks cs rest : List Char} {t : Token} {ts : List Token} (hblanks : ∀ c ∈ blanks, isBlank c = true)
    (ht : Spells cs t) (hts : SpellsAll rest ts) : SpellsAll (blanks ++ (cs ++ rest)) (t :: ts)

theorem SpellsAll.cons_bare {cs rest : List Char} {t : Token} {ts : List Token} (ht : Spells cs t)
    (hts : SpellsAll rest ts) : SpellsAll (cs ++ rest) (t :: ts) :=
  .cons (List.forall_mem_nil fun c => isBlank c = true) ht hts

def Apart (ts : List Token) : Prop := ts.IsChain fun t u => t.isNumber = true → u.isNumber = false

theorem ends_of_isBlank {c : Char} (h : isBlank c = true) (rest : List Char) : Decimal.Ends (c :: rest) := by
  intro d hd
  obtain rfl := Option.some.inj hd
  simp only [isBlank, Bool.decide_or, Bool.or_eq_true, decide_eq_true_eq] at h
  rcases h with rfl | rfl | rfl | rfl <;> decide

theorem isBlank_of_starts {c : Char} (h : c = '-' ∨ c.isDigit = true) : isBlank c = false := by
  rcases h with rfl | hdigit
  · rfl
  · by_contra hblank
    have hends := ends_of_isBlank (Bool.not_eq_false _ ▸ hblank) [] c rfl
    rw [hdigit] at hends
    cases hends.1

theorem Spells.exists_cons {cs : List Char} {t : Token} (h : Spells cs t) :
    ∃ c rest, cs = c :: rest ∧ isBlank c = false ∧ (t.isNumber = false → Decimal.Ends cs) := by
  cases h with
  | number h =>
    obtain ⟨c, rest, rfl, hc⟩ := h.exists_cons
    exact ⟨c, rest, rfl, isBlank_of_starts hc, fun h => by cases h⟩
  | @bool b => cases b <;> exact ⟨_, _, rfl, rfl, by simp [Decimal.Ends]⟩
  | _ => exact ⟨_, _, rfl, rfl, by simp [Decimal.Ends]⟩

theorem read?_of_spells {cs rest : List Char} {t : Token} (h : Spells cs t)
    (hrest : t.isNumber = true → Decimal.Ends rest) : read? (cs ++ rest) = some (t, rest) := by
  cases h with
  | number h =>
    have hread := Decimal.read?_of_spells h (hrest rfl)
    obtain ⟨c, cs, rfl, hc⟩ := h.exists_cons
    -- The text starts with a sign or a digit, so no other token is tried.
    unfold read?
    split
    case h_11 => rw [hread]; rfl
    all_goals
      simp only [List.cons_append, List.cons.injEq] at *
      rcases hc with rfl | hc <;> simp_all
  | @bool b => cases b <;> rfl
  | string h =>
    rw [List.cons_append, List.append_assoc, read?, List.singleton_append, readPieces?_of_spells h]
    rfl
  | _ => rfl

theorem spells_of_read? {cs rest : List Char} {t : Token} (h : read? cs = some (t, rest)) :
    ∃ body, cs = body ++ rest ∧ Spells body t := by
  unfold read? at h
  split at h
  case h_7 =>
    obtain ⟨⟨ps, after⟩, hp, h⟩ := Option.map_eq_some_iff.1 h
    cases h
    obtain ⟨body, rfl, hbody⟩ := spells_of_readPieces? hp
    exact ⟨_, by simp, .string hbody⟩
  case h_11 =>
    obtain ⟨⟨d, after⟩, hd, h⟩ := Option.map_eq_some_iff.1 h
    cases h
    obtain ⟨body, rfl, hbody⟩ := Decimal.spells_of_read? hd
    exact ⟨body, rfl, .number hbody⟩
  case h_9 => cases h; exact ⟨_, rfl, .bool⟩
  case h_10 => cases h; exact ⟨_, rfl, .bool⟩
  all_goals
    cases h
    exact ⟨_, rfl, by constructor⟩

theorem readAll?_append_of_isBlank {blanks : List Char} (h : ∀ c ∈ blanks, isBlank c = true) (cs : List Char) :
    readAll? (blanks ++ cs) = readAll? cs := by
  induction blanks with
  | nil => rfl
  | cons c blanks ih =>
    obtain ⟨hc, hblanks⟩ := List.forall_mem_cons.1 h
    rw [List.cons_append, readAll?, if_pos hc, ih hblanks]

theorem readAll?_append_of_spells {cs rest : List Char} {t : Token} (h : Spells cs t)
    (hrest : t.isNumber = true → Decimal.Ends rest) : readAll? (cs ++ rest) = (t :: ·) <$> readAll? rest := by
  have hread := read?_of_spells h hrest
  obtain ⟨c, cs, rfl, hc, -⟩ := h.exists_cons
  rw [List.cons_append, readAll?, if_neg (hc ▸ Bool.false_ne_true)]
  split
  next hnone => simp_all
  next t' rest' hsome =>
    obtain ⟨rfl, rfl⟩ : t = t' ∧ rest = rest' := by simpa using hread.symm.trans hsome
    rfl

theorem SpellsAll.ends {cs : List Char} {ts : List Token} (h : SpellsAll cs ts)
    (hts : ∀ t ∈ ts.head?, t.isNumber = false) : Decimal.Ends cs := by
  cases h with
  | nil hblanks =>
    cases cs with
    | nil => exact fun c hc => by cases hc
    | cons c cs => exact ends_of_isBlank (hblanks c List.mem_cons_self) cs
  | @cons blanks cs rest t ts hblanks ht _ =>
    cases blanks with
    | nil =>
      obtain ⟨c, cs, rfl, -, hends⟩ := ht.exists_cons
      exact hends (hts t rfl)
    | cons c blanks => exact ends_of_isBlank (hblanks c List.mem_cons_self) _

theorem readAll?_of_spellsAll {cs : List Char} {ts : List Token} (h : SpellsAll cs ts) (hts : Apart ts) :
    readAll? cs = some ts := by
  induction h with
  | @nil blanks hblanks => rw [← List.append_nil blanks, readAll?_append_of_isBlank hblanks, readAll?]
  | @cons blanks cs rest t ts hblanks ht hrest ih =>
    obtain ⟨hnext, hts⟩ := List.isChain_cons.1 hts
    rw [readAll?_append_of_isBlank hblanks, readAll?_append_of_spells ht, ih hts]
    · rfl
    · exact fun hnumber => hrest.ends fun u hu => hnext u hu hnumber

theorem spellsAll_of_readAll? {cs : List Char} {ts : List Token} (h : readAll? cs = some ts) : SpellsAll cs ts := by
  fun_induction readAll? cs generalizing ts with
  | case1 =>
    cases h
    exact .nil fun c hc => by cases hc
  | case2 c cs hc ih =>
    cases ih h with
    | nil hblanks => exact .nil (List.forall_mem_cons.2 ⟨hc, hblanks⟩)
    | cons hblanks ht hts => exact .cons (List.forall_mem_cons.2 ⟨hc, hblanks⟩) ht hts
  | case3 => cases h
  | case4 c cs hc t rest hread _ ih =>
    obtain ⟨ts, hts, rfl⟩ := Option.map_eq_some_iff.1 h
    obtain ⟨body, hbody, ht⟩ := spells_of_read? hread
    rw [hbody]
    exact .cons_bare ht (ih hts)

end Token

end OutlierBand.Json
