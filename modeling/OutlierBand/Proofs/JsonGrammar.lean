import OutlierBand.Json.Reader
import OutlierBand.Proofs.TokenGrammar

namespace OutlierBand.Json

mutual

def tokens : Json → List Token
  | null => [.null]
  | bool b => [.bool b]
  | number d => [.number d]
  | string s => [.string s]
  | array items => .openArray :: (itemTokens items ++ [.closeArray])
  | object members => .openObject :: (memberTokens members ++ [.closeObject])

def itemTokens : List Json → List Token
  | [] => []
  | [item] => item.tokens
  | item :: next :: items => item.tokens ++ .comma :: itemTokens (next :: items)

def memberTokens : List (JsonText × Json) → List Token
  | [] => []
  | [(name, value)] => .string name :: .colon :: value.tokens
  | (name, value) :: next :: members =>
    .string name :: .colon :: (value.tokens ++ .comma :: memberTokens (next :: members))

end

/-- The text is JSON and means this value. -/
def IsText (text : String) (value : Json) : Prop := Token.SpellsAll text.toList value.tokens

theorem exists_tokens_cons (v : Json) : ∃ t ts, v.tokens = t :: ts ∧ t ≠ .closeArray := by
  cases v <;> exact ⟨_, _, by rw [tokens], by simp⟩

theorem exists_itemTokens_cons (item : Json) (items : List Json) :
    ∃ t ts, itemTokens (item :: items) = t :: ts ∧ t ≠ .closeArray := by
  obtain ⟨t, ts, htokens, ht⟩ := item.exists_tokens_cons
  cases items with
  | nil => exact ⟨t, ts, by rw [itemTokens, htokens], ht⟩
  | cons => exact ⟨t, _, by rw [itemTokens, htokens, List.cons_append], ht⟩

theorem exists_memberTokens_cons (member : JsonText × Json) (members : List (JsonText × Json)) :
    ∃ ts, memberTokens (member :: members) = .string member.1 :: ts := by
  cases members <;> exact ⟨_, by rw [memberTokens]⟩

theorem readValue?_openArray {level : Nat} {t : Token} {ts : List Token} (h : t ≠ .closeArray) :
    readValue? (level + 1) (.openArray :: t :: ts) =
      (readItems? level (t :: ts)).map fun (items, rest) => (.array items, rest) := by
  cases t <;> first | rfl | exact (h rfl).elim

/-- So many levels suffice for as many tokens, and one more for the items or the members inside brackets. -/
structure ReadsTokens (level : Nat) : Prop where
  value : ∀ v rest, v.tokens.length ≤ level → readValue? level (v.tokens ++ rest) = some (v, rest)
  items : ∀ item items rest, (itemTokens (item :: items)).length < level →
    readItems? level (itemTokens (item :: items) ++ .closeArray :: rest) = some (item :: items, rest)
  members : ∀ member members rest, (memberTokens (member :: members)).length < level →
    readMembers? level (memberTokens (member :: members) ++ .closeObject :: rest) = some (member :: members, rest)

section

variable {level : Nat} (ih : ReadsTokens level)

include ih

theorem ReadsTokens.value_succ (v : Json) (rest : List Token) (h : v.tokens.length ≤ level + 1) :
    readValue? (level + 1) (v.tokens ++ rest) = some (v, rest) := by
  cases v with
  | null | bool | number | string => rfl
  | array items =>
    cases items with
    | nil => rfl
    | cons item items =>
      simp only [tokens, List.length_cons, List.length_append, List.length_nil] at h
      have hread := ih.items item items rest (by omega)
      obtain ⟨t, ts, htokens, ht⟩ := exists_itemTokens_cons item items
      simp only [tokens, htokens, List.cons_append, List.append_assoc, List.nil_append] at hread ⊢
      rw [readValue?_openArray ht, hread]
      rfl
  | object members =>
    cases members with
    | nil => rfl
    | cons member members =>
      simp only [tokens, List.length_cons, List.length_append, List.length_nil] at h
      have hread := ih.members member members rest (by omega)
      obtain ⟨ts, htokens⟩ := exists_memberTokens_cons member members
      simp only [tokens, htokens, List.cons_append, List.append_assoc, List.nil_append] at hread ⊢
      rw [readValue?, hread]
      · rfl
      · exact fun _ h => by cases h

theorem ReadsTokens.items_succ (item : Json) (items : List Json) (rest : List Token)
    (h : (itemTokens (item :: items)).length < level + 1) :
    readItems? (level + 1) (itemTokens (item :: items) ++ .closeArray :: rest) = some (item :: items, rest) := by
  cases items with
  | nil =>
    simp only [itemTokens] at h ⊢
    simp only [readItems?, ih.value item _ (Nat.le_of_lt_succ h), bind, Option.bind_some]
  | cons next items =>
    simp only [itemTokens, List.length_append, List.length_cons, List.append_assoc, List.cons_append] at h ⊢
    simp only [readItems?, ih.value item _ (by omega), ih.items next items rest (by omega), bind, Option.bind_some,
      Option.map_some]

theorem ReadsTokens.members_succ (member : JsonText × Json) (members : List (JsonText × Json)) (rest : List Token)
    (h : (memberTokens (member :: members)).length < level + 1) :
    readMembers? (level + 1) (memberTokens (member :: members) ++ .closeObject :: rest) =
      some (member :: members, rest) := by
  obtain ⟨name, value⟩ := member
  cases members with
  | nil =>
    simp only [memberTokens, List.length_cons, List.cons_append] at h ⊢
    simp only [readMembers?, ih.value value _ (by omega), bind, Option.bind_some]
  | cons next members =>
    simp only [memberTokens, List.length_append, List.length_cons, List.append_assoc, List.cons_append] at h ⊢
    simp only [readMembers?, ih.value value _ (by omega), ih.members next members rest (by omega), bind,
      Option.bind_some, Option.map_some]

end

theorem readsTokens (level : Nat) : ReadsTokens level := by
  induction level with
  | zero =>
    refine ⟨fun v rest h => ?_, fun _ _ _ h => (Nat.not_lt_zero _ h).elim, fun _ _ _ h => (Nat.not_lt_zero _ h).elim⟩
    obtain ⟨t, ts, htokens, -⟩ := v.exists_tokens_cons
    rw [htokens] at h
    cases h
  | succ level ih => exact ⟨ih.value_succ, ih.items_succ, ih.members_succ⟩

structure GivesTokens (level : Nat) : Prop where
  value : ∀ ts v rest, readValue? level ts = some (v, rest) → ts = v.tokens ++ rest
  items : ∀ ts items rest, readItems? level ts = some (items, rest) →
    items ≠ [] ∧ ts = itemTokens items ++ .closeArray :: rest
  members : ∀ ts members rest, readMembers? level ts = some (members, rest) →
    members ≠ [] ∧ ts = memberTokens members ++ .closeObject :: rest

section

variable {level : Nat} (ih : GivesTokens level)

include ih

theorem GivesTokens.value_succ (ts : List Token) (v : Json) (rest : List Token)
    (h : readValue? (level + 1) ts = some (v, rest)) : ts = v.tokens ++ rest := by
  unfold readValue? at h
  split at h
  case h_6 hlevel =>
    obtain rfl := Nat.succ.inj hlevel
    obtain ⟨⟨items, after⟩, hread, h⟩ := Option.map_eq_some_iff.1 h
    cases h
    simp [tokens, (ih.items _ _ _ hread).2]
  case h_8 hlevel =>
    obtain rfl := Nat.succ.inj hlevel
    obtain ⟨⟨members, after⟩, hread, h⟩ := Option.map_eq_some_iff.1 h
    cases h
    simp [tokens, (ih.members _ _ _ hread).2]
  case h_9 => cases h
  all_goals
    cases h
    rfl

theorem GivesTokens.items_succ (ts : List Token) (items : List Json) (rest : List Token)
    (h : readItems? (level + 1) ts = some (items, rest)) :
    items ≠ [] ∧ ts = itemTokens items ++ .closeArray :: rest := by
  simp only [readItems?, bind, Option.bind_eq_some_iff, Prod.exists] at h
  obtain ⟨item, after, hitem, h⟩ := h
  rw [ih.value _ _ _ hitem]
  split at h
  · cases h
    exact ⟨by simp, by simp [itemTokens]⟩
  · obtain ⟨⟨items, after⟩, hread, h⟩ := Option.map_eq_some_iff.1 h
    cases h
    obtain ⟨hne, hafter⟩ := ih.items _ _ _ hread
    obtain ⟨next, items, rfl⟩ := List.exists_cons_of_ne_nil hne
    exact ⟨by simp, by simp [itemTokens, hafter]⟩
  · cases h

theorem GivesTokens.members_succ (ts : List Token) (members : List (JsonText × Json)) (rest : List Token)
    (h : readMembers? (level + 1) ts = some (members, rest)) :
    members ≠ [] ∧ ts = memberTokens members ++ .closeObject :: rest := by
  unfold readMembers? at h
  split at h
  next hlevel =>
    obtain rfl := Nat.succ.inj hlevel
    simp only [bind, Option.bind_eq_some_iff, Prod.exists] at h
    obtain ⟨value, after, hvalue, h⟩ := h
    rw [ih.value _ _ _ hvalue]
    split at h
    · cases h
      exact ⟨by simp, by simp [memberTokens]⟩
    · obtain ⟨⟨members, after⟩, hread, h⟩ := Option.map_eq_some_iff.1 h
      cases h
      obtain ⟨hne, hafter⟩ := ih.members _ _ _ hread
      obtain ⟨next, members, rfl⟩ := List.exists_cons_of_ne_nil hne
      exact ⟨by simp, by simp [memberTokens, hafter]⟩
    · cases h
  next => cases h

end

theorem givesTokens (level : Nat) : GivesTokens level := by
  induction level with
  | zero => exact ⟨by simp [readValue?], by simp [readItems?], by simp [readMembers?]⟩
  | succ level ih => exact ⟨ih.value_succ, ih.items_succ, ih.members_succ⟩

theorem ofTokens?_eq_some_iff {ts : List Token} {v : Json} : ofTokens? ts = some v ↔ ts = v.tokens := by
  unfold ofTokens?
  constructor
  · intro h
    split at h
    next v' hread =>
      cases h
      rw [(givesTokens _).value _ _ _ hread, List.append_nil]
    next => cases h
  · rintro rfl
    have hread := (readsTokens (v.tokens.length + 1)).value v [] (Nat.le_succ _)
    rw [List.append_nil] at hread
    rw [hread]

section

open Token

theorem apart_cons {t : Token} {rest : List Token} (ht : t.isNumber = false) (h : Apart rest) : Apart (t :: rest) :=
  List.isChain_cons.2 ⟨fun _ _ hnumber => absurd hnumber (ht ▸ Bool.false_ne_true), h⟩

mutual

theorem apart_tokens (v : Json) {rest : List Token} (h : Apart rest)
    (hrest : ∀ t ∈ rest.head?, t.isNumber = false) : Apart (v.tokens ++ rest) := by
  cases v with
  | null | bool | string => exact apart_cons rfl h
  | number d => exact List.isChain_cons.2 ⟨fun t ht _ => hrest t ht, h⟩
  | array items =>
    rw [tokens, List.cons_append, List.append_assoc]
    exact apart_cons rfl (apart_itemTokens items (apart_cons rfl h) (by simp [isNumber]))
  | object members =>
    rw [tokens, List.cons_append, List.append_assoc]
    exact apart_cons rfl (apart_memberTokens members (apart_cons rfl h) (by simp [isNumber]))

theorem apart_itemTokens (items : List Json) {rest : List Token} (h : Apart rest)
    (hrest : ∀ t ∈ rest.head?, t.isNumber = false) : Apart (itemTokens items ++ rest) := by
  match items with
  | [] => exact h
  | [item] => exact apart_tokens item h hrest
  | item :: next :: items =>
    rw [itemTokens, List.append_assoc]
    exact apart_tokens item (apart_cons rfl (apart_itemTokens (next :: items) h hrest)) (by simp [isNumber])

theorem apart_memberTokens (members : List (JsonText × Json)) {rest : List Token} (h : Apart rest)
    (hrest : ∀ t ∈ rest.head?, t.isNumber = false) : Apart (memberTokens members ++ rest) := by
  match members with
  | [] => exact h
  | [(name, value)] => exact apart_cons rfl (apart_cons rfl (apart_tokens value h hrest))
  | (name, value) :: next :: members =>
    rw [memberTokens, List.cons_append, List.cons_append, List.append_assoc]
    exact apart_cons rfl (apart_cons rfl
      (apart_tokens value (apart_cons rfl (apart_memberTokens (next :: members) h hrest)) (by simp [isNumber])))

end

end

theorem read?_eq_some_iff {text : String} {v : Json} : read? text = some v ↔ IsText text v := by
  unfold read? IsText
  rw [Option.bind_eq_some_iff]
  constructor
  · rintro ⟨ts, hts, hv⟩
    rw [← ofTokens?_eq_some_iff.1 hv]
    exact Token.spellsAll_of_readAll? hts
  · intro h
    have hapart : Token.Apart (v.tokens ++ []) := v.apart_tokens List.isChain_nil (by simp)
    rw [List.append_nil] at hapart
    exact ⟨_, Token.readAll?_of_spellsAll h hapart, ofTokens?_eq_some_iff.2 rfl⟩

end OutlierBand.Json
