import OutlierBand.Proofs.PredictOutcome
import OutlierBand.Proofs.QuotedText
import OutlierBand.Session

namespace OutlierBand

namespace Report

def heading : Report → String
  | invalidInput _ => "Invalid input: "
  | invalidParameter .. => "Invalid parameter: "
  | unknownModel _ => "Unknown model: no fitted model for identifier "

def letter : Report → Char
  | invalidInput _ => 'i'
  | invalidParameter .. => 'p'
  | unknownModel _ => 'm'

theorem getElem?_heading (r : Report) : r.heading.toList[8]? = some r.letter := by
  cases r with
  | invalidInput => exact (by decide +kernel : "Invalid input: ".toList[8]? = some 'i')
  | invalidParameter => exact (by decide +kernel : "Invalid parameter: ".toList[8]? = some 'p')
  | unknownModel =>
    exact (by decide +kernel : "Unknown model: no fitted model for identifier ".toList[8]? = some 'm')

def body : Report → String
  | invalidInput text => text
  | invalidParameter name reason => name ++ (" - " ++ reason)
  | unknownModel id => id

theorem heading_append_body (r : Report) : r.heading ++ r.body = r.message := by
  cases r with
  | invalidParameter name reason =>
    calc "Invalid parameter: " ++ (name ++ (" - " ++ reason))
      _ = "Invalid parameter: " ++ name ++ (" - " ++ reason) := String.append_assoc.symm
      _ = "Invalid parameter: " ++ name ++ " - " ++ reason := String.append_assoc.symm
  | invalidInput | unknownModel => rfl

theorem getElem?_message (r : Report) : r.message.toList[8]? = some r.letter := by
  have h := r.getElem?_heading
  rw [← heading_append_body, String.toList_append, List.getElem?_append_left (List.getElem?_eq_some_iff.1 h).1, h]

theorem heading_eq_of_letter_eq {r r' : Report} (h : r.letter = r'.letter) : r.heading = r'.heading := by
  cases r <;> cases r' <;> first | rfl | simp [letter] at h

theorem letter_body_eq {r r' : Report} (h : r.message = r'.message) : r.letter = r'.letter ∧ r.body = r'.body := by
  have hletter : r.letter = r'.letter := by
    apply Option.some.inj
    rw [← getElem?_message, ← getElem?_message, h]
  rw [← heading_append_body, ← heading_append_body, heading_eq_of_letter_eq hletter] at h
  exact ⟨hletter, (String.append_right_inj _).1 h⟩

def NamedInOneWord : Report → Prop
  | invalidInput _ => True
  | invalidParameter name _ => ' ' ∉ name.toList
  | unknownModel _ => True

theorem toList_dash : " - ".toList = [' ', '-', ' '] := by decide +kernel

theorem named_reason_cancel {name name' reason reason' : String} (hname : ' ' ∉ name.toList)
    (hname' : ' ' ∉ name'.toList) (h : name ++ (" - " ++ reason) = name' ++ (" - " ++ reason')) :
    name = name' ∧ reason = reason' := by
  have hchars := congrArg String.toList h
  simp only [String.toList_append, toList_dash, List.cons_append, List.nil_append] at hchars
  obtain ⟨hnames, hrest⟩ := Text.append_cons_cancel hname hname' hchars
  simp only [List.cons.injEq, true_and] at hrest
  exact ⟨String.toList_inj.1 hnames, String.toList_inj.1 hrest⟩

theorem message_injective {r r' : Report} (hr : r.NamedInOneWord) (hr' : r'.NamedInOneWord)
    (h : r.message = r'.message) : r = r' := by
  obtain ⟨hletter, hbody⟩ := letter_body_eq h
  cases r with
  | invalidInput text =>
    cases r' with
    | invalidInput text' => exact congrArg invalidInput hbody
    | invalidParameter | unknownModel => simp [letter] at hletter
  | invalidParameter name reason =>
    cases r' with
    | invalidParameter name' reason' =>
      obtain ⟨rfl, rfl⟩ := named_reason_cancel hr hr' hbody
      rfl
    | invalidInput | unknownModel => simp [letter] at hletter
  | unknownModel id =>
    cases r' with
    | unknownModel id' => exact congrArg unknownModel hbody
    | invalidInput | invalidParameter => simp [letter] at hletter

end Report

theorem Fault.namedInOneWord_report (fault : Fault) : fault.report.NamedInOneWord := by
  cases fault with
  | sensitivity | deviationScale | minTolerance | statistic => simp [report, Report.NamedInOneWord]
  | _ => trivial

inductive Raised : Report → Prop
  | sensitivity {s : Binary64} {r : Report} (h : told (checkSensitivity s) = some r) : Raised r
  | samples {xs : Samples} {r : Report} (h : told xs.check = some r) : Raised r
  | rank {dimensions size : Nat} {r : Report} (h : told (Samples.checkRank dimensions size) = some r) : Raised r
  | rows {rows : List (List Binary64)} {r : Report} (h : told (Samples.ofRows rows) = some r) : Raised r
  | statistic {text : String} {r : Report} (h : told (Statistic.ofText text) = some r) : Raised r
  | config {c : Config} {r : Report} (h : told c.validate = some r) : Raised r
  | band {xs : Samples} {s : Binary64} {c : Config} {r : Report} (h : told (Band.fit xs s c) = some r) : Raised r
  | step {κ : Type} [DecidableEq κ] [Identifier κ] {s : Session κ} {a : Step κ} {r : Report}
    (h : told (s.perform a).2 = some r) : Raised r

theorem exists_fault_of_told {α : Type} {x : Except Fault α} {r : Report} (h : told x = some r) :
    ∃ fault : Fault, r = fault.report := by
  cases x with
  | ok => cases h
  | error fault => exact ⟨fault, (Option.some.inj h).symm⟩

theorem Raised.namedInOneWord {r : Report} (h : Raised r) : r.NamedInOneWord := by
  obtain ⟨fault, rfl⟩ : ∃ fault : Fault, r = fault.report := by
    cases h <;> exact exists_fault_of_told ‹_›
  exact fault.namedInOneWord_report

def Identifier.ToldApart (κ : Type) [DecidableEq κ] [Identifier κ] : Prop :=
  ∀ (c d : Classifier κ) (a b : κ) (xs ys : Samples), c.isFitted a = false → d.isFitted b = false →
    (told (c.predict a xs)).map Report.message = (told (d.predict b ys)).map Report.message → a = b

theorem Identifier.Distinct.toldApart {κ : Type} [DecidableEq κ] [Identifier κ] (h : Distinct κ) : ToldApart κ := by
  intro c d a b xs ys ha hb hmessage
  rw [Classifier.told_predict_unknown_iff.2 ha, Classifier.told_predict_unknown_iff.2 hb, Option.map_some,
    Option.map_some, Option.some_inj] at hmessage
  exact h (Report.unknownModel.inj (Report.message_injective trivial trivial hmessage))

/-- An unknown identifier is told from every other of its type by the message of the refusal, and of all that operations
can report, no two have the same message. -/
theorem messages_identify :
    (Identifier.ToldApart Int ∧ Identifier.ToldApart String ∧ Identifier.ToldApart Key) ∧
      ∀ r r', Raised r → Raised r' → r.message = r'.message → r = r' := by
  refine ⟨⟨?_, ?_, ?_⟩, fun r r' hr hr' => Report.message_injective hr.namedInOneWord hr'.namedInOneWord⟩
  · exact Identifier.distinct_int.toldApart
  · exact Identifier.distinct_string.toldApart
  · exact Identifier.distinct_key.toldApart

theorem messages_identify_escapes :
    let c : Classifier String := .new
    let r := Report.invalidParameter "reference" "expected 'mean' or 'median', got 'sensitivity - '"
    c.isFitted "\n" = false ∧ c.isFitted "\\n" = false ∧
      (told (c.predict "\n" .empty)).map Report.message ≠ (told (c.predict "\\n" .empty)).map Report.message ∧
      Raised r ∧ ∀ r', Raised r' → r.message = r'.message → r = r' := by
  intro c r
  obtain ⟨⟨-, hstring, -⟩, hreports⟩ := messages_identify
  have htold : told (Statistic.ofText "Sensitivity - ") = some r := by decide +kernel
  have hraised : Raised r := .statistic htold
  refine ⟨rfl, rfl, fun h => ?_, hraised, fun r' => hreports r r' hraised⟩
  exact absurd (hstring c c "\n" "\\n" .empty .empty rfl rfl h) (by decide)

end OutlierBand
