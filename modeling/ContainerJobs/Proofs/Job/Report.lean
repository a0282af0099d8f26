import ContainerJobs.Job.Report
import ContainerJobs.Proofs.Assoc
import ContainerJobs.Proofs.Text.Field

/-!
# What a report gives away

An inspection tells the environment of a container, and some variables in it are
secret. Of two inspections that are the same once the values of these variables
are hidden (`Report.withoutSecrets`), the reports agree in all that was made for
people to read. They also hold the inspections that they were made from, and so
the secrets: the reports are equal exactly if the inspections were
(`JobDetails.ofInspection_of_withoutSecrets_eq`).
-/

namespace ContainerJobs

namespace Json

variable {key other : String} {f : Json → Json}

/-- The value with what stands under a key changed. -/
def modify (key : String) (f : Json → Json) : Json → Json
  | object members => object (members.map fun (k, v) => (k, if k = key then f v else v))
  | v => v

theorem get?_modify_self (v : Json) : (v.modify key f).get? key = (v.get? key).map f := by
  cases v with
  | object members =>
    refine (Assoc.lookup_map_value (fun k v => if k = key then f v else v) members).trans ?_
    simp only [if_true]
    rfl
  | _ => rfl

theorem get?_modify_of_ne (h : other ≠ key) (v : Json) :
    (v.modify key f).get? other = v.get? other := by
  cases v with
  | object members =>
    refine (Assoc.lookup_map_value (fun k v => if k = key then f v else v) members).trans ?_
    simp only [if_neg h, Option.map_id']
    rfl
  | _ => rfl

end Json

namespace Report

/-! ## Inspections without secrets -/

/-- An entry of the environment, without the value if that must not be shown. -/
def hideValue (entry : String) : String :=
  match Text.cut? '=' entry.toList with
  | some (name, _) =>
    if isSensitive (String.ofList name) then String.ofList (name ++ '=' :: redacted.toList)
    else entry
  | none => entry

/-- An item of the environment. Only a string is an entry. -/
def hideItem : Json → Json
  | .string entry => .string (hideValue entry)
  | v => v

/-- The environment without the values that must not be shown. -/
def hideValues : Json → Json
  | .array items => .array (items.map hideItem)
  | v => v

/-- An inspection without the values of sensitive variables in the environment. -/
def withoutSecrets (content : Json) : Json :=
  content.modify "Config" (Json.modify "Env" hideValues)

/-! ## Sections -/

variable {key other : String} {f : Json → Json}

/-- The environment of a report shows a hidden value as it shows any other. -/
theorem envEntry?_hideValue (entry : String) : envEntry? (hideValue entry) = envEntry? entry := by
  cases cut : Text.cut? '=' entry.toList with
  | none => simp only [hideValue, cut]
  | some p =>
    obtain ⟨name, value⟩ := p
    have unsplit := (Text.eq_of_cut? cut).2
    cases sensitive : isSensitive (String.ofList name) with
    | false => simp only [hideValue, cut, sensitive, Bool.false_eq_true, if_false]
    | true =>
      simp only [hideValue, envEntry?, cut, sensitive, if_true, String.toList_ofList,
        Text.cut?_append unsplit, Option.map_some]

theorem environment_modify (config : Json) :
    environment (config.modify "Env" hideValues) = environment config := by
  rw [environment, environment, Json.get?_modify_self]
  cases config.get? "Env" with
  | none => rfl
  | some env =>
    cases env with
    | array items =>
      have shown : ((items.map hideItem).filterMap Json.string?).filterMap envEntry? =
          (items.filterMap Json.string?).filterMap envEntry? := by
        rw [List.filterMap_map, List.filterMap_filterMap, List.filterMap_filterMap]
        refine List.filterMap_congr fun item _ => ?_
        cases item with
        | string entry => exact envEntry?_hideValue entry
        | _ => rfl
      exact congrArg Assoc.ofPairs shown
    | _ => rfl

theorem part_modify_of_ne (h : other ≠ key) (v : Json) :
    part (v.modify key f) other = part v other := by
  rw [part, Json.get?_modify_of_ne h, part]

theorem text_modify_of_ne (h : other ≠ key) (v : Json) :
    text (v.modify key f) other = text v other := by
  rw [text, Json.get?_modify_of_ne h, text]

theorem part_modify_self (hf : f .null = .null) (v : Json) :
    part (v.modify key f) key = f (part v key) := by
  rw [part, Json.get?_modify_self, part]
  cases v.get? key with
  | none => exact hf.symm
  | some _ => rfl

theorem part_withoutSecrets_config (content : Json) :
    part (withoutSecrets content) "Config" = (part content "Config").modify "Env" hideValues :=
  part_modify_self rfl content

theorem part_withoutSecrets_of_ne (h : key ≠ "Config") (content : Json) :
    part (withoutSecrets content) key = part content key :=
  part_modify_of_ne h content

theorem text_withoutSecrets_of_ne (h : key ≠ "Config") (content : Json) :
    text (withoutSecrets content) key = text content key :=
  text_modify_of_ne h content

theorem overview_withoutSecrets (content : Json) :
    overview (withoutSecrets content) = overview content := by
  simp [overview, part_withoutSecrets_config, part_withoutSecrets_of_ne,
    text_withoutSecrets_of_ne, text_modify_of_ne, Json.get?_modify_of_ne]

theorem networking_withoutSecrets (content : Json) :
    networking (withoutSecrets content) = networking content := by
  rw [networking, part_withoutSecrets_of_ne (by decide), networking]

theorem mounts_withoutSecrets (content : Json) :
    mounts (withoutSecrets content) = mounts content := by
  rw [mounts, withoutSecrets, Json.get?_modify_of_ne (by decide), mounts]

end Report

namespace JobDetails

open Report

/-- Apart from the inspection that it holds, a report has no secrets. -/
theorem ofInspection_withoutSecrets (i : Inspection) :
    ofInspection { i with content := withoutSecrets i.content } =
      { ofInspection i with rawData := withoutSecrets i.content } := by
  simp [ofInspection, overview_withoutSecrets, networking_withoutSecrets, mounts_withoutSecrets,
    part_withoutSecrets_config, part_withoutSecrets_of_ne, text_withoutSecrets_of_ne,
    environment_modify, part_modify_of_ne]

/-- Reports on inspections that are the same but for secrets differ only in the
    inspection that they hold. -/
theorem ofInspection_eq_of_withoutSecrets_eq {i : Inspection} {other : Json}
    (same : withoutSecrets i.content = withoutSecrets other) :
    ofInspection { i with content := other } = { ofInspection i with rawData := other } := by
  have hidden := ofInspection_withoutSecrets i
  rw [same] at hidden
  replace hidden := hidden.symm.trans (ofInspection_withoutSecrets { i with content := other })
  have held : (ofInspection { i with content := other }).rawData = other := rfl
  -- The rest is about the two reports, not about how they were made.
  generalize ofInspection i = d, ofInspection { i with content := other } = e at hidden held ⊢
  rw [← held]
  exact (congrArg (fun x : JobDetails => { x with rawData := e.rawData }) hidden).symm

/-- Reports that differ in the inspection that they hold differ as they are written. -/
theorem toJson_eq_iff_rawData_eq (d : JobDetails) (content : Json) :
    d.toJson = ({ d with rawData := content } : JobDetails).toJson ↔ d.rawData = content := by
  simp [toJson]

/-- The reports on inspections that are the same but for secrets. They differ in the
    inspection that they hold, and in nothing else. So they are equal, and are equal
    as they are written, only if the secrets are. -/
theorem ofInspection_of_withoutSecrets_eq (i : Inspection) (other : Json)
    (same : withoutSecrets i.content = withoutSecrets other) :
    let d := ofInspection i
    let e := ofInspection { i with content := other }
    e = { d with rawData := other } ∧ d.rawData = i.content ∧
      (d = e ↔ i.content = other) ∧ (d.toJson = e.toJson ↔ i.content = other) := by
  intro d e
  have agree : e = { d with rawData := other } := ofInspection_eq_of_withoutSecrets_eq same
  have held : d.rawData = i.content := rfl
  clear_value d e
  refine ⟨agree, held, ⟨fun h => ?_, fun h => ?_⟩, ?_⟩
  · rw [← held, h, agree]
  · rw [agree, ← h, ← held]
  · rw [agree, ← held, toJson_eq_iff_rawData_eq]

/-- The inspection of a container that has a key of the host in its environment. -/
def sampleInspection (secret : String) : Inspection where
  key := ⟨"lens", "run-1"⟩
  status := .running
  content := .object [("Config", .object [("Env", .array
    [.string "LANG=C", .string ("OPENAI_API_KEY=" ++ secret)])]), ("Id", .string "4f1c2a9b8e7d")]
  logs := none

/-- Whoever gets the report can tell one key from another. -/
theorem ofInspection_sampleInspection :
    withoutSecrets (sampleInspection "sk-1").content =
        withoutSecrets (sampleInspection "sk-2").content ∧
      (ofInspection (sampleInspection "sk-1")).toJson ≠
        (ofInspection (sampleInspection "sk-2")).toJson := by
  have same : withoutSecrets (sampleInspection "sk-1").content =
      withoutSecrets (sampleInspection "sk-2").content := by rfl
  have differ : (sampleInspection "sk-1").content ≠ (sampleInspection "sk-2").content := by
    simp [sampleInspection]
  exact ⟨same, fun h => differ
    ((ofInspection_of_withoutSecrets_eq (sampleInspection "sk-1") _ same).2.2.2.1 h)⟩

end JobDetails

end ContainerJobs
