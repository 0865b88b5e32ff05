import Mathlib.Tactic.Common
import Rollout.Proofs.Json.OneLine
import Rollout.Proofs.Switch.Stream
import Rollout.Proofs.Text.Split

/-!
# Streams of events that are read back

A stream has a line for each event. The object on a line gives back the time and the event from
which it was written, whatever the texts of the event are, so that different events never have the
same line (`stream_reads_back`).
-/

namespace Rollout.Switch

/-- The phase with a name. -/
def Phase.ofName? (name : String) : Option Phase := Phase.all.find? (·.name = name)

theorem Phase.ofName?_name (phase : Phase) : Phase.ofName? phase.name = some phase := by
  cases phase <;> decide

namespace Event

/-! ### Reading an event -/

section

variable (members : Dict Json)

def text? (key : String) : Option String :=
  match members.get? key with
  | some (.text s) => some s
  | _ => none

/-- A text that may be missing; then the member is null. -/
def optionalText? (key : String) : Option (Option String) :=
  match members.get? key with
  | some (.text s) => some (some s)
  | some .null => some none
  | _ => none

def phase? : Option Phase := (text? members "phase").bind Phase.ofName?

/-- The event that members tell of, by the kind that they name. -/
def ofMembers? : Option Event := do
  match ← text? members "event" with
  | "start" =>
    return .started (← text? members "project") (← optionalText? members "from")
      (← text? members "to")
  | "phase_start" => return .phaseStarted (← phase? members)
  | "phase_skipped" => return .phaseSkipped (← phase? members) (← text? members "reason")
  | "item_written" => return .fileWritten ⟨← text? members "path"⟩
  | "folder_removed" => return .folderRemoved ⟨← text? members "path"⟩
  | "phase_error" => return .phaseFailed (← phase? members) (← text? members "error")
  | "complete" => return .completed (← text? members "project") (← text? members "deployer")
  | _ => none

end

/-- The members of the object on a line. -/
def membersOf? (line : String) : Option (Dict Json) :=
  match Json.read? line with
  | some (.object members) => some members
  | _ => none

def timeOf? (line : String) : Option String := (membersOf? line).bind (text? · "timestamp")

/-- The members on a line apart from the time stamp. -/
def untimed? (line : String) : Option (Dict Json) := (membersOf? line).map (Dict.erase "timestamp")

def ofLine? (line : String) : Option Event := (untimed? line).bind ofMembers?

/-! ### The object of an event -/

variable (time : String) (e : Event)

/-- What an event says, its kind and its command first. -/
def fields : List (String × Json) :=
  [("event", .text e.kind), ("command", .text "switch")] ++ e.details

/-- The members of an event with its time stamp. -/
def members : Dict Json :=
  Dict.ofEntries ([("event", .text e.kind), ("command", .text "switch"),
    ("timestamp", .text time)] ++ e.details)

/-- The line of an event without its end. -/
def lineText : String := (e.toJson time).compact

theorem line_eq : e.line time = e.lineText time ++ "\n" := rfl

theorem toJson_eq : e.toJson time = .object (e.members time) := rfl

/-- A text, or null where there is none. -/
def isPlain : Json → Bool
  | .text _ => true
  | .null => true
  | _ => false

theorem value?_of_isPlain {j : Json} (h : isPlain j = true) (room : Nat) :
    j.toSource.value? room = some j := by
  cases j with
  | text s => rfl
  | null => rfl
  | _ => cases h

theorem isPlain_details : ∀ m ∈ e.details, isPlain m.2 = true := by
  apply List.all_eq_true.1
  cases e with
  | started project origin target => cases origin <;> rfl
  | _ => rfl

theorem isPlain_members : ∀ m ∈ e.members time, isPlain m.2 = true := by
  intro m hm
  rcases List.mem_append.1 (Dict.mem_of_mem_ofEntries hm) with hm | hm
  · have hhead : ∀ m ∈ [("event", Json.text e.kind), ("command", .text "switch"),
        ("timestamp", .text time)], isPlain m.2 = true := List.all_eq_true.1 rfl
    exact hhead m hm
  · exact isPlain_details e m hm

/-- An object of an event is read back from its line. -/
theorem membersOf?_lineText : membersOf? (e.lineText time) = some (e.members time) := by
  have hvalue : (e.toJson time).toSource.value? Json.nestingLimit = some (e.toJson time) :=
    Json.value?_toSource_object (Dict.sorted_ofEntries _) fun m hm =>
      value?_of_isPlain (isPlain_members time e m hm) _
  have hread : Json.read? (e.lineText time) = some (e.toJson time) := by
    rw [Json.read?, lineText, Json.read?_compact]
    exact hvalue
  rw [membersOf?, hread, toJson_eq]

theorem timeOf?_lineText : timeOf? (e.lineText time) = some time := by
  have hnone : Dict.get? "timestamp" e.details.reverse = none := by
    cases e <;> rfl
  rw [timeOf?, membersOf?_lineText]
  simp [text?, members, Dict.get?_ofEntries, Dict.get?_append, hnone, Dict.get?]

/-- The time stamp is the only member that the time has a part in. -/
theorem get?_untimed (key : String) :
    ((e.members time).erase "timestamp").get? key =
      if "timestamp" = key then none else Dict.get? key e.fields.reverse := by
  rw [Dict.get?_erase, members, Dict.get?_ofEntries, fields]
  split_ifs with hkey
  · rfl
  · simp [Dict.get?_append, Dict.get?, hkey]

theorem ofMembers?_untimed : ofMembers? ((e.members time).erase "timestamp") = some e := by
  cases e with
  | started project origin target =>
    -- The member of the origin is a text or null.
    cases origin <;>
      simp [ofMembers?, text?, optionalText?, get?_untimed, fields, details, Dict.get?, kind]
  | _ =>
    simp [ofMembers?, text?, phase?, get?_untimed, fields, details, Dict.get?, kind,
      Phase.ofName?_name]

theorem ofLine?_lineText : ofLine? (e.lineText time) = some e := by
  rw [ofLine?, untimed?, membersOf?_lineText, Option.map_some, Option.bind_some,
    ofMembers?_untimed]

theorem untimed?_eq_iff {time' : String} {e' : Event} :
    untimed? (e.lineText time) = untimed? (e'.lineText time') ↔ e = e' := by
  rw [untimed?, untimed?, membersOf?_lineText, membersOf?_lineText, Option.map_some,
    Option.map_some, Option.some_inj]
  constructor
  · intro h
    have hread := ofMembers?_untimed time e
    rw [h, ofMembers?_untimed] at hread
    exact (Option.some.inj hread).symm
  · rintro rfl
    refine Dict.eq_of_get? ((Dict.sorted_ofEntries _).filter _)
      ((Dict.sorted_ofEntries _).filter _) fun key => ?_
    rw [get?_untimed, get?_untimed]

/-! ### The stream -/

/-- The output for events one after the other, each with the time at which it is written. -/
def stream (told : List (String × Event)) : String :=
  String.join (told.map fun (time, e) => e.line time)

/-- The lines of events without their ends. -/
def lineTexts (told : List (String × Event)) : List String :=
  told.map fun (time, e) => e.lineText time

theorem toList_stream (told : List (String × Event)) :
    (stream told).toList = ((lineTexts told).map String.toList).flatMap (· ++ ['\n']) := by
  rw [stream, lineTexts, String.toList_join, List.map_map, List.flatMap_map, List.flatMap_map]
  simp [line_eq]

theorem noControls_lineTexts (told : List (String × Event)) :
    ∀ line ∈ lineTexts told, Json.NoControls line.toList := by
  intro line hline
  obtain ⟨⟨time, e⟩, -, rfl⟩ := List.mem_map.1 hline
  exact Json.noControls_compact _

/-- No end of a line stands on a line. -/
theorem notMem_lineTexts {c : Char} (hc : c.toNat < 0x20) (told : List (String × Event)) :
    ∀ line ∈ (lineTexts told).map String.toList, c ∉ line := by
  intro line hline
  obtain ⟨text, htext, rfl⟩ := List.mem_map.1 hline
  exact (noControls_lineTexts told text htext).notMem hc

theorem lines_stream (told : List (String × Event)) :
    (Text.lines (stream told).toList).map String.ofList = lineTexts told := by
  rw [toList_stream, Text.lines_flatMap (notMem_lineTexts (by decide) told)
    (notMem_lineTexts (by decide) told), List.map_map]
  simp [Function.comp_def]

/-- The lines of a stream are as many as its events, and the end of a line stands nowhere else. A
line gives back the time and the event, and what is on it apart from the time stamp is what is on
the lines of the same event and of no other. -/
theorem stream_reads_back (told : List (String × Event)) :
    let lines := (Text.lines (stream told).toList).map String.ofList
    Text.splitOn '\n' (stream told).toList = lines.map String.toList ++ [[]] ∧
      (∀ line ∈ lines, Json.NoControls line.toList) ∧
      lines.map timeOf? = told.map (some ·.1) ∧ lines.map ofLine? = told.map (some ·.2) ∧
      ∀ time e time' e', untimed? (lineText time e) = untimed? (lineText time' e') ↔ e = e' := by
  intro lines
  have hlines : lines = lineTexts told := lines_stream told
  rw [hlines]
  refine ⟨?_, ?_, ?_, ?_, fun time e time' e' => untimed?_eq_iff time e⟩
  · rw [toList_stream, Text.splitOn_flatMap (notMem_lineTexts (by decide) told)]
  · exact noControls_lineTexts told
  · simp only [lineTexts, List.map_map, Function.comp_def, timeOf?_lineText]
  · simp only [lineTexts, List.map_map, Function.comp_def, ofLine?_lineText]

end Event
end Rollout.Switch
