import OutlierBand.Json.Writer
import OutlierBand.Proofs.JsonGrammar
import OutlierBand.Proofs.WrittenNumber

namespace OutlierBand.Json

namespace Piece

theorem join?_map_char (cs : List Char) : join? (cs.map .char) = some cs := by
  induction cs with
  | nil => rfl
  | cons c cs ih => simp [join?, ih]

theorem ofUnit_toNat {c : Char} (h : c.toNat < 0xd800) : ofUnit c.toNat = .char c := by
  rw [ofUnit, if_neg (by omega), Char.ofNat_toNat]

end Piece

theorem exists_hex4 : ∀ n < 0x20, ∃ a b c d, hex4 n = [a, b, c, d] ∧ unit? a b c d = some n := by
  intro n hn
  have hunit : ∀ n < 0x20, (hex4 n).length = 4 ∧
      unit? (hex4 n)[0]! (hex4 n)[1]! (hex4 n)[2]! (hex4 n)[3]! = some n := by decide
  obtain ⟨hlength, hn⟩ := hunit n hn
  match h : hex4 n, hlength with
  | [a, b, c, d], _ =>
    rw [h] at hn
    exact ⟨a, b, c, d, rfl, hn⟩

theorem spells_escape (c : Char) : Piece.Spells (escape c) (.char c) := by
  unfold escape
  split_ifs with hquote hslash hcontrol
  · rw [hquote]
    exact .escape rfl
  · rw [hslash]
    exact .escape rfl
  · obtain ⟨w, x, y, z, hhex, hunit⟩ := exists_hex4 c.toNat hcontrol
    rw [hhex, ← Piece.ofUnit_toNat (hcontrol.trans (by decide))]
    exact .unit hunit
  · exact .plain (Nat.not_lt.1 hcontrol) hquote hslash

theorem spellsAll_flatMap_escape (cs : List Char) : Piece.SpellsAll (cs.flatMap escape) (cs.map .char) := by
  induction cs with
  | nil => exact .nil
  | cons c cs ih => exact .cons (spells_escape c) ih

theorem hex4_high : hex4 0xd800 = ['d', '8', '0', '0'] := by decide +kernel

theorem spells_textChars (s : JsonText) : Token.Spells (textChars s) (.string s) := by
  cases s with
  | none =>
    rw [textChars, hex4_high]
    exact .string (.cons (.unit (n := 0xd800) rfl) .nil)
  | some s =>
    have hspells := Token.Spells.string (spellsAll_flatMap_escape s.toList)
    rwa [Piece.join?_map_char, Option.map_some, String.ofList_toList] at hspells

mutual

def spread : Json → Json
  | null => null
  | bool b => bool b
  | number d => number d.spread
  | string s => string s
  | array items => array (spreadItems items)
  | object members => object (spreadMembers members)

def spreadItems : List Json → List Json
  | [] => []
  | item :: items => item.spread :: spreadItems items

def spreadMembers : List (JsonText × Json) → List (JsonText × Json)
  | [] => []
  | (name, value) :: members => (name, value.spread) :: spreadMembers members

end

section

open Token

variable {rest : List Char} {t : Token} {ts : List Token}

theorem Token.SpellsAll.cons_char {c : Char} (ht : Spells [c] t) (hts : SpellsAll rest ts) :
    SpellsAll (c :: rest) (t :: ts) := .cons_bare ht hts

-- Stated in front of a rest that is spelled already, so that brackets, commas and values are put there one by one.
mutual

theorem spellsAll_chars (v : Json) {rest : List Char} {ts : List Token} (h : SpellsAll rest ts) :
    SpellsAll (v.chars ++ rest) (v.spread.tokens ++ ts) := by
  cases v with
  | null => exact .cons_bare .null h
  | bool b =>
    cases b with
    | false => exact .cons_bare (.bool (b := false)) h
    | true => exact .cons_bare (.bool (b := true)) h
  | number d => exact .cons_bare (.number d.spells_chars) h
  | string s => exact .cons_bare (spells_textChars s) h
  | array items =>
    simp only [chars, spread, tokens, List.cons_append, List.append_assoc, List.nil_append]
    exact .cons_char .openArray (spellsAll_itemChars items (.cons_char .closeArray h))
  | object members =>
    simp only [chars, spread, tokens, List.cons_append, List.append_assoc, List.nil_append]
    exact .cons_char .openObject (spellsAll_memberChars members (.cons_char .closeObject h))

theorem spellsAll_itemChars (items : List Json) {rest : List Char} {ts : List Token} (h : SpellsAll rest ts) :
    SpellsAll (itemChars items ++ rest) (itemTokens (spreadItems items) ++ ts) := by
  match items with
  | [] => exact h
  | [item] => exact spellsAll_chars item h
  | item :: next :: items =>
    have ih := spellsAll_itemChars (next :: items) h
    simp only [itemChars, spreadItems, itemTokens, List.append_assoc, List.cons_append] at ih ⊢
    exact spellsAll_chars item (.cons_char .comma ih)

theorem spellsAll_memberChars (members : List (JsonText × Json)) {rest : List Char} {ts : List Token}
    (h : SpellsAll rest ts) : SpellsAll (memberChars members ++ rest) (memberTokens (spreadMembers members) ++ ts) := by
  match members with
  | [] => exact h
  | [(name, value)] =>
    simp only [memberChars, spreadMembers, memberTokens, List.append_assoc, List.cons_append]
    exact .cons_bare (spells_textChars name) (.cons_char .colon (spellsAll_chars value h))
  | (name, value) :: next :: members =>
    have ih := spellsAll_memberChars (next :: members) h
    simp only [memberChars, spreadMembers, memberTokens, List.append_assoc, List.cons_append] at ih ⊢
    exact .cons_bare (spells_textChars name) (.cons_char .colon (spellsAll_chars value (.cons_char .comma ih)))

end

end

theorem isText_text (v : Json) : IsText v.text v.spread := by
  have h := spellsAll_chars v (.nil (List.forall_mem_nil fun c => Token.isBlank c = true))
  rw [List.append_nil, List.append_nil] at h
  rwa [IsText, text, String.toList_ofList]

end OutlierBand.Json
