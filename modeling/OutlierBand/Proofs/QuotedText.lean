import OutlierBand.Identifier
import Mathlib.Data.List.Basic
import Mathlib.Data.Nat.Digits.Defs
import Mathlib.Tactic.SplitIfs

namespace OutlierBand

namespace Text

open Function

theorem append_cons_cancel {α : Type} {c : α} {xs ys s t : List α} (hx : c ∉ xs) (hy : c ∉ ys)
    (h : xs ++ c :: s = ys ++ c :: t) : xs = ys ∧ s = t := by
  induction xs generalizing ys with
  | nil =>
    cases ys with
    | nil => exact ⟨rfl, (List.cons.inj h).2⟩
    | cons y ys => exact absurd (List.mem_cons.2 (.inl (List.cons.inj h).1)) hy
  | cons x xs ih =>
    cases ys with
    | nil => exact absurd (List.mem_cons.2 (.inl (List.cons.inj h).1.symm)) hx
    | cons y ys =>
      obtain ⟨rfl, hrest⟩ := List.cons.inj h
      obtain ⟨rfl, hst⟩ := ih (mt (List.mem_cons_of_mem _) hx) (mt (List.mem_cons_of_mem _) hy) hrest
      exact ⟨rfl, hst⟩

def PrefixFree {α : Type} (write : α → List Char) : Prop :=
  ∀ a b s t, write a ++ s = write b ++ t → a = b ∧ s = t

theorem PrefixFree.flatMap_injective {α : Type} {write : α → List Char} (h : PrefixFree write)
    (hne : ∀ a, write a ≠ []) : Injective (List.flatMap write) := by
  intro as
  induction as with
  | nil =>
    intro bs hbs
    cases bs with
    | nil => rfl
    | cons b bs => exact absurd (List.append_eq_nil_iff.1 hbs.symm).1 (hne b)
  | cons a as ih =>
    intro bs hbs
    cases bs with
    | nil => exact absurd (List.append_eq_nil_iff.1 hbs).1 (hne a)
    | cons b bs =>
      obtain ⟨rfl, hrest⟩ := h a b _ _ hbs
      rw [ih hrest]

section

variable {b : Nat}

theorem exists_of_mem_toDigits (hb : 1 < b) {n : Nat} {c : Char} (h : c ∈ Nat.toDigits b n) :
    ∃ d < b, c = d.digitChar := by
  induction n using Nat.base_induction b hb with
  | single n hn =>
    rw [Nat.toDigits_of_lt_base hn, List.mem_singleton] at h
    exact ⟨n, hn, h⟩
  | digit n d hd hn ih =>
    rw [← Nat.toDigits_append_toDigits hb hn hd, List.mem_append, Nat.toDigits_of_lt_base hd, List.mem_singleton] at h
    rcases h with h | h
    · exact ih h
    · exact ⟨d, hd, h⟩

theorem digitChar_injOn : ∀ m < 16, ∀ n < 16, m.digitChar = n.digitChar → m = n := by decide

theorem toDigits_injective (hb : 1 < b) (h16 : b ≤ 16) : Injective (Nat.toDigits b) := by
  have hlast {m n : Nat} (hm : m < b) (hn : n < b) (h : m.digitChar = n.digitChar) : m = n :=
    digitChar_injOn m (hm.trans_le h16) n (hn.trans_le h16) h
  have hlonger (n : Nat) (c d : Char) : Nat.toDigits b n ++ [c] ≠ [] ++ [d] := by
    intro h
    exact Nat.toDigits_ne_nil (List.append_inj' h rfl).1
  intro n
  induction n using Nat.strong_induction_on with
  | _ n ih =>
    intro m h
    rw [Nat.toDigits_eq_if hb, Nat.toDigits_eq_if hb (n := m)] at h
    -- A lone digit is told from a longer text by its length, and longer texts by their last digits first.
    split_ifs at h with hn hm hm
    · exact hlast hn hm (List.cons.inj h).1
    · exact absurd h.symm (hlonger (m / b) _ _)
    · exact absurd h (hlonger (n / b) _ _)
    · obtain ⟨hfront, hback⟩ := List.append_inj' h rfl
      have hb0 : 0 < b := by omega
      have hdiv := ih (n / b) (Nat.div_lt_self (by omega) hb) hfront
      have hmod := hlast (Nat.mod_lt n hb0) (Nat.mod_lt m hb0) (List.cons.inj hback).1
      rw [← Nat.div_add_mod n b, hdiv, hmod, Nat.div_add_mod]

end

def escapeNames : List (Char × Char) :=
  [('"', '"'), ('\\', '\\'), ('0', '\x00'), ('t', '\t'), ('n', '\n'), ('r', '\r')]

inductive Spells : Char → List Char → Prop
  | plain {c : Char} (h : c ≠ '\\') : Spells c [c]
  | named {c e : Char} (h : (e, c) ∈ escapeNames) : Spells c ['\\', e]
  | numbered (c : Char) : Spells c ('\\' :: 'u' :: '\x7b' :: Nat.toDigits 16 c.toNat ++ ['\x7d'])

theorem spells_escape (c : Char) : Spells c (escape c) := by
  unfold escape
  split_ifs with hquote hslash hnul htab hline hreturn hhidden
  · exact .named (by simp [hquote, escapeNames])
  · exact .named (by simp [hslash, escapeNames])
  · exact .named (by simp [hnul, escapeNames])
  · exact .named (by simp [htab, escapeNames])
  · exact .named (by simp [hline, escapeNames])
  · exact .named (by simp [hreturn, escapeNames])
  · exact .numbered c
  · exact .plain hslash

theorem brace_not_mem_toDigits (n : Nat) : '\x7d' ∉ Nat.toDigits 16 n := by
  intro h
  obtain ⟨d, hd, hbrace⟩ := exists_of_mem_toDigits (by decide) h
  have hdigits : ∀ d < 16, '\x7d' ≠ d.digitChar := by decide
  exact hdigits d hd hbrace

theorem Spells.unique {c d : Char} {cs ds s t : List Char} (hc : Spells c cs) (hd : Spells d ds)
    (h : cs ++ s = ds ++ t) : c = d ∧ s = t := by
  -- A name is no beginning of a number: none is the letter that stands before numbers.
  have hnames : ∀ p ∈ escapeNames, ∀ q ∈ escapeNames, p.1 = q.1 → p.2 = q.2 := by decide
  have hletter : ∀ p ∈ escapeNames, p.1 ≠ 'u' := by decide
  cases hc with
  | plain hc =>
    cases hd with
    | plain => exact List.cons.inj h
    | named => exact absurd (List.cons.inj h).1 hc
    | numbered => exact absurd (List.cons.inj h).1 hc
  | named hc =>
    cases hd with
    | plain hd => exact absurd (List.cons.inj h).1.symm hd
    | named hd =>
      obtain ⟨hname, hst⟩ := List.cons.inj (List.cons.inj h).2
      exact ⟨hnames _ hc _ hd hname, hst⟩
    | numbered => exact absurd (List.cons.inj (List.cons.inj h).2).1 (hletter _ hc)
  | numbered =>
    cases hd with
    | plain hd => exact absurd (List.cons.inj h).1.symm hd
    | named hd => exact absurd (List.cons.inj (List.cons.inj h).2).1.symm (hletter _ hd)
    | numbered =>
      simp only [List.cons_append, List.append_assoc, List.nil_append, List.cons.injEq, true_and] at h
      obtain ⟨hdigits, hst⟩ := append_cons_cancel (brace_not_mem_toDigits _) (brace_not_mem_toDigits _) h
      exact ⟨Char.toNat_inj.1 (toDigits_injective (by decide) (by decide) hdigits), hst⟩

theorem prefixFree_escape : PrefixFree escape := fun c d _ _ h => (spells_escape c).unique (spells_escape d) h

theorem Spells.ne_nil {c : Char} {cs : List Char} (h : Spells c cs) : cs ≠ [] := by cases h <;> simp

theorem quoted_injective : Injective quoted := by
  intro s t h
  have hquotes := (List.cons.inj (String.ofList_inj.1 h)).2
  have hchars := prefixFree_escape.flatMap_injective (fun c => (spells_escape c).ne_nil) (List.append_cancel_right hquotes)
  exact String.toList_inj.1 hchars

theorem repr_injective : Injective Nat.repr := by
  intro m n h
  apply toDigits_injective (by decide : 1 < 10) (by decide)
  rw [← Nat.toList_repr, h, Nat.toList_repr]

theorem repr_ne_minus (m n : Nat) : m.repr ≠ "-" ++ n.repr := by
  intro h
  have hmem : '-' ∈ m.repr.toList := by
    rw [h, String.toList_append]
    exact List.mem_append_left _ (List.mem_singleton_self _)
  rw [Nat.toList_repr] at hmem
  exact absurd (Nat.isDigit_of_mem_toDigits (by decide) (by decide) hmem) (by decide)

theorem decimal_injective : Injective decimal := by
  intro m n h
  unfold decimal at h
  split_ifs at h with hm hn hn
  · have := repr_injective ((String.append_right_inj "-").1 h)
    omega
  · exact absurd h.symm (repr_ne_minus _ _)
  · exact absurd h (repr_ne_minus _ _)
  · have := repr_injective h
    omega

end Text

namespace Identifier

def Distinct (κ : Type) [Identifier κ] : Prop := Function.Injective (text : κ → String)

theorem distinct_int : Distinct Int := Text.decimal_injective

theorem distinct_string : Distinct String := Text.quoted_injective

theorem distinct_key : Distinct Key := by
  have hkinds (m s : String) : "Int(" ++ m ++ ")" ≠ "Str(" ++ s ++ ")" := by
    intro h
    have hchars := congrArg String.toList h
    simp [String.toList_append] at hchars
  intro a b h
  cases a with
  | number m =>
    cases b with
    | number n =>
      have htext := (String.append_right_inj "Int(").1 ((String.append_left_inj ")").1 h)
      rw [Text.decimal_injective htext]
    | name s => exact absurd h (hkinds _ _)
  | name s =>
    cases b with
    | number n => exact absurd h.symm (hkinds _ _)
    | name t =>
      have htext := (String.append_right_inj "Str(").1 ((String.append_left_inj ")").1 h)
      rw [Text.quoted_injective htext]

end Identifier

end OutlierBand
