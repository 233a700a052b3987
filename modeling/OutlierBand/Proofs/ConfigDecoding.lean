import OutlierBand.Config.Json
import OutlierBand.Proofs.DecimalValue
import OutlierBand.Proofs.JsonGrammar

/-!
What a JSON text means as a configuration. An object is accepted when no field is given twice and every given field has
a value that can stand for it, and then gives those values and the defaults for the rest; neither the order of the
members, nor blanks, nor members of other names matter. An array means the object that gives its values names.
-/

namespace OutlierBand

open Binary64

namespace Json

inductive MeansNumber : Json → Binary64 → Prop
  | number {d : Decimal} (h : (nearest d.negative d.value).isFinite = true) :
    MeansNumber (.number d) (nearest d.negative d.value)

inductive MeansStatistic : Json → Statistic → Prop
  | name (s : Statistic) : MeansStatistic (.string (some s.name)) s
  | member (s : Statistic) : MeansStatistic (.object [(some s.name, .null)]) s

end Json

theorem Binary64.ofJson?_eq_some_iff {v : Json} {x : Binary64} : ofJson? v = some x ↔ v.MeansNumber x := by
  constructor
  · intro h
    unfold ofJson? at h
    split at h
    next d =>
      obtain ⟨hx, hfinite⟩ := Option.filter_eq_some_iff.1 h
      obtain rfl := Option.some.inj hx
      rw [d.toBinary64_eq_nearest] at hfinite ⊢
      exact .number hfinite
    next => cases h
  · rintro ⟨h⟩
    rw [ofJson?, Decimal.toBinary64_eq_nearest]
    exact Option.filter_eq_some_iff.2 ⟨rfl, h⟩

theorem Statistic.ofName?_eq_some_iff {name : String} {s : Statistic} : ofName? name = some s ↔ name = s.name := by
  constructor
  · intro h
    unfold ofName? at h
    split at h
    · cases h
      assumption
    · split at h
      · cases h
        assumption
      · cases h
  · rintro rfl
    exact ofName?_name s

theorem Statistic.ofJson?_eq_some_iff {v : Json} {s : Statistic} : ofJson? v = some s ↔ v.MeansStatistic s := by
  constructor
  · intro h
    unfold ofJson? at h
    split at h
    · obtain rfl := ofName?_eq_some_iff.1 h
      exact .name s
    · obtain rfl := ofName?_eq_some_iff.1 h
      exact .member s
    · cases h
  · rintro (_ | _) <;> exact ofName?_name s

namespace Config

structure Takes {α : Type} (members : List (JsonText × Json)) (name : String) (means : Json → α → Prop)
    (absent a : α) : Prop where
  given : ∀ v, (some name, v) ∈ members → means v a
  absent : (∀ v, (some name, v) ∉ members) → a = absent

structure TakenFrom (c : Config) (members : List (JsonText × Json)) : Prop where
  deviationScale : Takes members "deviation_scale" Json.MeansNumber default.deviationScale c.deviationScale
  minTolerance : Takes members "min_tolerance" Json.MeansNumber default.minTolerance c.minTolerance
  reference : Takes members "reference" Json.MeansStatistic default.reference c.reference

def Once (members : List (JsonText × Json)) (name : JsonText) : Prop := members.countP (·.1 = name) ≤ 1

structure Acceptable (members : List (JsonText × Json)) : Prop where
  once : ∀ name ∈ fieldNames, Once members name
  number : ∀ name ∈ ["deviation_scale", "min_tolerance"], ∀ v, (some name, v) ∈ members → ∃ x, v.MeansNumber x
  statistic : ∀ v, (some "reference", v) ∈ members → ∃ s, v.MeansStatistic s

section

variable {α : Type} {members : List (JsonText × Json)} {name : String} {read? : Json → Option α}
  {means : Json → α → Prop} {absent a : α}

theorem mem_iff_mem_filter {m : JsonText × Json} :
    m ∈ members.filter (·.1 = m.1) ↔ m ∈ members := by simp [List.mem_filter]

theorem takes_of_none (h : members.filter (·.1 = some name) = []) :
    Takes members name means absent a ↔ absent = a := by
  have hnone : ∀ v, (some name, v) ∉ members := by
    intro v hv
    rw [← mem_iff_mem_filter, h] at hv
    cases hv
  exact ⟨fun htakes => (htakes.absent hnone).symm, fun ha => ⟨fun v hv => absurd hv (hnone v), fun _ => ha.symm⟩⟩

theorem takes_of_single {v : Json} (h : members.filter (·.1 = some name) = [(some name, v)]) :
    Takes members name means absent a ↔ means v a := by
  have hmem : ∀ w, (some name, w) ∈ members ↔ w = v := by
    intro w
    rw [← mem_iff_mem_filter, h]
    simp
  constructor
  · exact fun htakes => htakes.given v ((hmem v).2 rfl)
  · refine fun ha => ⟨fun w hw => (hmem w).1 hw ▸ ha, fun habsent => absurd ((hmem v).2 rfl) (habsent v)⟩

theorem once_cases (h : Once members (some name)) : members.filter (·.1 = some name) = [] ∨
    ∃ v, members.filter (·.1 = some name) = [(some name, v)] := by
  rw [Once, List.countP_eq_length_filter] at h
  have hname : ∀ m ∈ members.filter (·.1 = some name), m.1 = some name := by simp [List.mem_filter]
  generalize members.filter (·.1 = some name) = l at *
  match l with
  | [] => exact .inl rfl
  | [(n, v)] =>
    obtain rfl := hname _ List.mem_cons_self
    exact .inr ⟨v, rfl⟩
  | _ :: _ :: _ =>
    simp only [List.length_cons] at h
    omega

theorem field?_eq_some_iff (h : ∀ v a, read? v = some a ↔ means v a) :
    field? members name read? absent = some a ↔ Once members (some name) ∧ Takes members name means absent a := by
  by_cases honce : Once members (some name)
  · rw [and_iff_right honce, field?]
    rcases once_cases honce with hl | ⟨v, hl⟩
    · rw [hl, takes_of_none hl, Option.some.injEq]
    · rw [hl, takes_of_single hl]
      exact h v a
  · refine iff_of_false (fun hfield => honce ?_) fun h => honce h.1
    rw [Once, List.countP_eq_length_filter]
    unfold field? at hfield
    split at hfield
    next hl => simp [hl]
    next hl => simp [hl]
    next => cases hfield

theorem exists_takes_iff (honce : Once members (some name)) :
    (∃ a, Takes members name means absent a) ↔ ∀ v, (some name, v) ∈ members → ∃ a, means v a := by
  rcases once_cases honce with hl | ⟨v, hl⟩
  · simp only [takes_of_none hl, exists_eq', true_iff]
    intro v hv
    rw [← mem_iff_mem_filter, hl] at hv
    cases hv
  · simp only [takes_of_single hl]
    constructor
    · rintro ha w hw
      rw [← mem_iff_mem_filter, hl] at hw
      obtain rfl : w = v := by simpa using hw
      exact ha
    · exact fun hall => hall v (mem_iff_mem_filter.1 (hl ▸ List.mem_cons_self))

theorem ofMembers?_eq_some_iff {c : Config} : ofMembers? members = some c ↔
    (∀ m ∈ members, m.1.isSome = true) ∧ (∀ name ∈ fieldNames, Once members name) ∧ c.TakenFrom members := by
  have hnumber : ∀ v x, Binary64.ofJson? v = some x ↔ v.MeansNumber x := fun _ _ => ofJson?_eq_some_iff
  have hstatistic : ∀ v s, Statistic.ofJson? v = some s ↔ v.MeansStatistic s := fun _ _ => Statistic.ofJson?_eq_some_iff
  have honce : (∀ name ∈ fieldNames, Once members name) ↔ Once members (some "deviation_scale") ∧
      Once members (some "min_tolerance") ∧ Once members (some "reference") := by simp [fieldNames]
  rw [ofMembers?, honce]
  split
  next hnames =>
    rw [and_iff_right (List.all_eq_true.1 hnames)]
    simp only [bind, Option.bind_eq_some_iff, field?_eq_some_iff hnumber, field?_eq_some_iff hstatistic,
      Option.some.injEq]
    constructor
    · rintro ⟨scale, ⟨hscale, htakes⟩, tolerance, ⟨htolerance, htakes'⟩, reference, ⟨hreference, htakes''⟩, rfl⟩
      exact ⟨⟨hscale, htolerance, hreference⟩, htakes, htakes', htakes''⟩
    · rintro ⟨⟨hscale, htolerance, hreference⟩, htakes, htakes', htakes''⟩
      exact ⟨_, ⟨hscale, htakes⟩, _, ⟨htolerance, htakes'⟩, _, ⟨hreference, htakes''⟩, rfl⟩
  next hnames =>
    rw [List.all_eq_true] at hnames
    exact iff_of_false (by simp) fun h => hnames h.1

theorem exists_takenFrom_iff (h : ∀ name ∈ fieldNames, Once members name) :
    (∃ c : Config, c.TakenFrom members) ↔ Acceptable members := by
  have hscale := h (some "deviation_scale") (by simp [fieldNames])
  have htolerance := h (some "min_tolerance") (by simp [fieldNames])
  have hreference := h (some "reference") (by simp [fieldNames])
  constructor
  · rintro ⟨c, hc⟩
    refine ⟨h, ?_, (exists_takes_iff hreference).1 ⟨_, hc.reference⟩⟩
    simp only [List.forall_mem_cons]
    exact ⟨(exists_takes_iff hscale).1 ⟨_, hc.deviationScale⟩, (exists_takes_iff htolerance).1 ⟨_, hc.minTolerance⟩,
      by simp⟩
  · intro hmembers
    obtain ⟨scale, hs⟩ := (exists_takes_iff hscale).2 (hmembers.number _ (by simp))
    obtain ⟨tolerance, ht⟩ := (exists_takes_iff htolerance).2 (hmembers.number _ (by simp))
    obtain ⟨reference, hr⟩ := (exists_takes_iff hreference).2 hmembers.statistic
    exact ⟨⟨scale, tolerance, reference⟩, hs, ht, hr⟩

theorem Takes.of_mem_iff {others : List (JsonText × Json)} (h : Takes members name means absent a)
    (hmem : ∀ v, (some name, v) ∈ members ↔ (some name, v) ∈ others) : Takes others name means absent a where
  given v hv := h.given v ((hmem v).2 hv)
  absent hnone := h.absent fun v hv => hnone v ((hmem v).1 hv)

end

def fieldMembers (members : List (JsonText × Json)) : List (JsonText × Json) := members.filter (·.1 ∈ fieldNames)

section

variable {members others : List (JsonText × Json)}

theorem countP_fieldMembers {name : JsonText} (h : name ∈ fieldNames) :
    (fieldMembers members).countP (·.1 = name) = members.countP (·.1 = name) := by
  rw [fieldMembers, List.countP_filter]
  apply List.countP_congr
  rintro ⟨other, v⟩ -
  by_cases hname : other = name <;> simp [hname, h]

theorem mem_fieldMembers {name : JsonText} (h : name ∈ fieldNames) (v : Json) :
    (name, v) ∈ fieldMembers members ↔ (name, v) ∈ members := by
  simp [fieldMembers, List.mem_filter, h]

theorem ofMembers?_congr (hnames : ∀ m ∈ members, m.1.isSome = true) (hothers : ∀ m ∈ others, m.1.isSome = true)
    (h : (fieldMembers members).Perm (fieldMembers others)) : ofMembers? members = ofMembers? others := by
  -- What is accepted, and as what, depends on which values a name has and on how often it comes, never on its place.
  have hmem : ∀ name ∈ fieldNames, ∀ v, (name, v) ∈ members ↔ (name, v) ∈ others := by
    intro name hname v
    rw [← mem_fieldMembers hname, h.mem_iff, mem_fieldMembers hname]
  have honce : (∀ name ∈ fieldNames, Once members name) ↔ ∀ name ∈ fieldNames, Once others name := by
    apply forall₂_congr
    intro name hname
    rw [Once, Once, ← countP_fieldMembers hname, h.countP_eq, countP_fieldMembers hname]
  have hscale := hmem (some "deviation_scale") (by simp [fieldNames])
  have htolerance := hmem (some "min_tolerance") (by simp [fieldNames])
  have hreference := hmem (some "reference") (by simp [fieldNames])
  ext c
  rw [ofMembers?_eq_some_iff, ofMembers?_eq_some_iff, honce, and_iff_right hnames, and_iff_right hothers]
  refine and_congr_right fun _ => ⟨fun hc => ?_, fun hc => ?_⟩
  · exact ⟨hc.deviationScale.of_mem_iff hscale, hc.minTolerance.of_mem_iff htolerance,
      hc.reference.of_mem_iff hreference⟩
  · exact ⟨hc.deviationScale.of_mem_iff fun v => (hscale v).symm,
      hc.minTolerance.of_mem_iff fun v => (htolerance v).symm, hc.reference.of_mem_iff fun v => (hreference v).symm⟩

end

structure Decodes (text : String) (members : List (JsonText × Json)) : Prop where
  accepted : (∃ c, ofText? text = some c) ↔ Acceptable members
  taken : ∀ c, ofText? text = some c → c.TakenFrom members

theorem ofText?_of_isText {text : String} {v : Json} (h : Json.IsText text v) : ofText? text = ofJson? v := by
  rw [ofText?, Json.read?_eq_some_iff.2 h, Option.bind_some]

section

variable {text : String} {members : List (JsonText × Json)}

theorem decodes_of_ofMembers? (h : ofText? text = ofMembers? members) (hnames : ∀ m ∈ members, m.1.isSome = true) :
    Decodes text members := by
  constructor
  · rw [h]
    simp only [ofMembers?_eq_some_iff, and_iff_right hnames, exists_and_left]
    constructor
    · rintro ⟨honce, hc⟩
      exact (exists_takenFrom_iff honce).1 hc
    · exact fun hmembers => ⟨hmembers.once, (exists_takenFrom_iff hmembers.once).2 hmembers⟩
  · intro c hc
    exact (ofMembers?_eq_some_iff.1 (h ▸ hc)).2.2

theorem ofMembers?_of_nameless (h : ∃ m ∈ members, m.1 = none) : ofMembers? members = none := by
  obtain ⟨m, hm, hnone⟩ := h
  refine Option.eq_none_iff_forall_ne_some.2 fun c hc => ?_
  have hsome := (ofMembers?_eq_some_iff.1 hc).1 m hm
  rw [hnone] at hsome
  cases hsome

theorem ofJson?_of_other {v : Json} (harray : ∀ items, v ≠ .array items) (hobject : ∀ members, v ≠ .object members) :
    ofJson? v = none := by
  unfold ofJson?
  split
  · exact absurd rfl (hobject _)
  · exact absurd rfl (harray _)
  · rfl

theorem isSome_of_mem_zip_fieldNames {items : List Json} : ∀ m ∈ fieldNames.zip items, m.1.isSome = true := by
  rintro ⟨name, v⟩ hm
  have hname := (List.of_mem_zip hm).1
  simp only [fieldNames, List.mem_cons, List.not_mem_nil, or_false] at hname
  rcases hname with rfl | rfl | rfl <;> rfl

end

/-- A text means the same whatever the order of its members, its blanks and its other members. An array means the
object of the values it has; any other value, and a member with no name, are refused. -/
theorem decodes_text :
    (∀ text members, Json.IsText text (.object members) → (∀ m ∈ members, m.1.isSome = true) → Decodes text members) ∧
    (∀ text members text' members', Json.IsText text (.object members) → Json.IsText text' (.object members') →
      (∀ m ∈ members, m.1.isSome = true) → (∀ m ∈ members', m.1.isSome = true) →
      (fieldMembers members).Perm (fieldMembers members') → ofText? text = ofText? text') ∧
    (∀ text members, Json.IsText text (.object members) → (∃ m ∈ members, m.1 = none) → ofText? text = none) ∧
    (∀ text items, Json.IsText text (.array items) → items.length ≤ 3 → Decodes text (fieldNames.zip items) ∧
      ∀ text', Json.IsText text' (.object (fieldNames.zip items)) → ofText? text = ofText? text') ∧
    (∀ text items, Json.IsText text (.array items) → 3 < items.length → ofText? text = none) ∧
    (∀ text value, Json.IsText text value → (∀ items, value ≠ .array items) → (∀ members, value ≠ .object members) →
      ofText? text = none) ∧
    ∀ text, (∀ value, ¬Json.IsText text value) → ofText? text = none := by
  refine ⟨?_, ?_, ?_, ?_, ?_, ?_, ?_⟩
  · intro text members htext hnames
    exact decodes_of_ofMembers? (ofText?_of_isText htext) hnames
  · intro text members text' members' htext htext' hnames hnames' hperm
    rw [ofText?_of_isText htext, ofText?_of_isText htext']
    exact ofMembers?_congr hnames hnames' hperm
  · intro text members htext hnameless
    rw [ofText?_of_isText htext]
    exact ofMembers?_of_nameless hnameless
  · intro text items htext hlength
    have hread : ofText? text = ofMembers? (fieldNames.zip items) := by
      rw [ofText?_of_isText htext]
      exact if_pos hlength
    exact ⟨decodes_of_ofMembers? hread isSome_of_mem_zip_fieldNames, fun text' htext' =>
      hread.trans (ofText?_of_isText htext').symm⟩
  · intro text items htext hlength
    rw [ofText?_of_isText htext]
    exact if_neg (Nat.not_le.2 hlength)
  · intro text value htext harray hobject
    rw [ofText?_of_isText htext]
    exact ofJson?_of_other harray hobject
  · intro text hnone
    rw [ofText?, Option.bind_eq_none_iff]
    exact fun v hv => absurd (Json.read?_eq_some_iff.1 hv) (hnone v)

theorem decodes_text_reordered :
    Json.IsText "\x7b \"reference\":\"mean\", \"x\":[1e999],\n\"min_toleranc\\u0065\":1e-1\x7d"
      (.object [(some "reference", .string (some "mean")), (some "x", .array [.number ⟨false, 1, 999⟩]),
        (some "min_tolerance", .number ⟨false, 1, -1⟩)]) ∧
    Json.IsText "\x7b\"min_tolerance\":1e-1,\"reference\":\"mean\"\x7d"
      (.object [(some "min_tolerance", .number ⟨false, 1, -1⟩), (some "reference", .string (some "mean"))]) ∧
    Json.IsText "[10]" (.array [.number ⟨false, 10, 0⟩]) ∧
    Decodes "\x7b\"min_tolerance\":1e-1,\"reference\":\"mean\"\x7d"
      [(some "min_tolerance", .number ⟨false, 1, -1⟩), (some "reference", .string (some "mean"))] ∧
    ofText? "\x7b \"reference\":\"mean\", \"x\":[1e999],\n\"min_toleranc\\u0065\":1e-1\x7d" =
      ofText? "\x7b\"min_tolerance\":1e-1,\"reference\":\"mean\"\x7d" ∧
    Decodes "[10]" [(some "deviation_scale", .number ⟨false, 10, 0⟩)] := by
  have hspelled : Json.IsText "\x7b \"reference\":\"mean\", \"x\":[1e999],\n\"min_toleranc\\u0065\":1e-1\x7d"
      (.object [(some "reference", .string (some "mean")), (some "x", .array [.number ⟨false, 1, 999⟩]),
        (some "min_tolerance", .number ⟨false, 1, -1⟩)]) := Json.Token.spellsAll_of_readAll? (by decide +kernel)
  have hplain : Json.IsText "\x7b\"min_tolerance\":1e-1,\"reference\":\"mean\"\x7d"
      (.object [(some "min_tolerance", .number ⟨false, 1, -1⟩), (some "reference", .string (some "mean"))]) :=
    Json.Token.spellsAll_of_readAll? (by decide +kernel)
  have harray : Json.IsText "[10]" (.array [.number ⟨false, 10, 0⟩]) :=
    Json.Token.spellsAll_of_readAll? (by decide +kernel)
  obtain ⟨hobject, horder, -, hlist, -⟩ := decodes_text
  refine ⟨hspelled, hplain, harray, hobject _ _ hplain (by simp), horder _ _ _ _ hspelled hplain (by simp) (by simp) ?_,
    (hlist _ _ harray (by decide)).1⟩
  simpa [fieldMembers, fieldNames] using List.Perm.swap ..

end Config

end OutlierBand
