import Mathlib.Data.UInt
import Mathlib.Tactic.Common
import Rollout.Compile.Release
import Rollout.Output.DeployFiles
import Rollout.Proofs.Dict
import Rollout.Proofs.Json.Numeral

/-!
# Ports of releases and of their values

A release sets the text of the option `port` as its port, whatever that text says; the values of
its chart have the port that the option names, or the project's own. Both name one port where the
option names one, though the release may spell it in another way, and a release that sets none
leaves the project's own. The release also sets texts that name no port (`compiled_port`).
-/

namespace Rollout

namespace OptionValue

/-- A port in decimal digits. -/
def portText (n : UInt16) : String := String.ofList (Nat.toDigits 10 n.toNat)

/-- The value has the text of the port that it names, or neither. -/
inductive SpellsPort : OptionValue → Prop
  | integer {n : Int64} (h : 0 ≤ n.toInt ∧ n.toInt < UInt16.size) : SpellsPort (.integer n)
  | text (n : UInt16) : SpellsPort (.text (portText n))
  | list (items : List OptionValue) : SpellsPort (.list items)
  | map (entries : List (String × OptionValue)) : SpellsPort (.map entries)

/-! ### Texts that are ports -/

theorem isBlankChar_of_isDigit {c : Char} (h : c.isDigit = true) : Text.isBlankChar c = false := by
  have hrange := Json.toNat_of_isDigit h
  simp only [Text.isBlankChar, Bool.or_eq_false_iff, Bool.and_eq_false_iff, decide_eq_false_iff_not,
    beq_eq_false_iff_ne]
  omega

theorem trim_digits {ds : List Char} (h : Json.AreDigits ds) :
    Text.trim (String.ofList ds) = String.ofList ds := by
  have hdrop (cs : List Char) (hcs : Json.AreDigits cs) : cs.dropWhile Text.isBlankChar = cs := by
    cases cs with
    | nil => rfl
    | cons c cs => simp [isBlankChar_of_isDigit (hcs c List.mem_cons_self)]
  have hreverse : Json.AreDigits ds.reverse := fun c hc => h c (List.mem_reverse.1 hc)
  rw [Text.trim, String.toList_ofList, Text.trimStart, hdrop ds h, Text.trimEnd,
    hdrop _ hreverse, List.reverse_reverse]

/-- A port is read back from its text. -/
theorem readPort?_portText (n : UInt16) : readPort? (portText n) = some n := by
  have hdigits := Json.areDigits_toDigits n.toNat
  have htake : Json.takeDigits (Nat.toDigits 10 n.toNat ++ []) = _ :=
    Json.takeDigits_append hdigits nofun
  have hvalue := Json.digitsValue_toDigits n.toNat
  obtain ⟨c, cs, hcs⟩ := List.exists_cons_of_ne_nil (Nat.toDigits_ne_nil (b := 10) (n := n.toNat))
  have hplus : c ≠ '+' := by
    rintro rfl
    exact absurd (hdigits '+' (hcs ▸ List.mem_cons_self)) (by decide)
  rw [List.append_nil] at htake
  rw [readPort?, portText, trim_digits hdigits, String.toList_ofList]
  rw [hcs, List.map_cons] at htake hvalue
  simp [hcs, hplus, htake, hvalue, n.toNat_lt]

/-! ### The text of a value and the port that it names -/

variable {v : OptionValue}

theorem scalarText?_integer {n : Int64} (h : 0 ≤ n.toInt) :
    scalarText? (.integer n) = some (String.ofList (Nat.toDigits 10 n.toInt.toNat)) := by
  have habs : n.toInt.natAbs = n.toInt.toNat := by omega
  rw [scalarText?, Json.integerText, if_neg (by omega), habs]

theorem portText_ofNat {n : Nat} (h : n < UInt16.size) :
    portText (UInt16.ofNat n) = String.ofList (Nat.toDigits 10 n) := by
  rw [portText, UInt16.toNat_ofNat_of_lt' h]

/-- A value that names a port has a text, from which that port is read. -/
theorem exists_scalarText?_of_asPort? {n : UInt16} (h : v.asPort? = some n) :
    ∃ t, v.scalarText? = some t ∧ readPort? t = some n := by
  cases v with
  | integer i =>
    simp only [asPort?] at h
    split_ifs at h with hrange
    have hlt : i.toInt.toNat < UInt16.size := by omega
    refine ⟨_, scalarText?_integer hrange.1, ?_⟩
    rw [← portText_ofNat hlt, readPort?_portText, ← h]
  | text s => exact ⟨s, rfl, h⟩
  | _ => cases h

/-- The text of a value is that of its port exactly if it spells its port. -/
theorem scalarText?_eq_portText_iff :
    v.scalarText? = v.asPort?.map portText ↔ v.SpellsPort := by
  constructor
  · intro h
    cases v with
    | bool b => cases b <;> cases h
    | integer i =>
      simp only [asPort?] at h
      split_ifs at h with hrange
      · exact .integer hrange
      · cases h
    | real x => cases h
    | text s =>
      obtain ⟨n, -, hn⟩ := Option.map_eq_some_iff.1 h.symm
      exact hn ▸ .text n
    | list items => exact .list items
    | map entries => exact .map entries
  · rintro (⟨hrange⟩ | n | items | entries)
    · have hlt := hrange.2
      rw [scalarText?_integer hrange.1, asPort?, if_pos hrange, Option.map_some,
        portText_ofNat (by omega)]
    · rw [scalarText?, asPort?, readPort?_portText, Option.map_some]
    · rfl
    · rfl

end OptionValue

/-! ### The port in the values of a chart -/

namespace DeployFiles

open Yaml

theorem isBreak_of_isDigit {c : Char} (h : c.isDigit = true) : isBreak c = false := by
  have hrange := Json.toNat_of_isDigit h
  have hne (d : Char) (hd : d.toNat < 48 ∨ 57 < d.toNat) : c ≠ d := by
    rintro rfl
    omega
  simp only [isBreak, Bool.or_eq_false_iff, decide_eq_false_iff_not, beq_eq_false_iff_ne]
  exact ⟨⟨⟨⟨hne _ (by decide), hne _ (by decide)⟩, by omega⟩, hne _ (by decide)⟩, hne _ (by decide)⟩

theorem exists_under (indent : Nat) (first second : List Char) :
    ∃ between, under indent first second = first ++ between ++ second := by
  refine ⟨(if endsIn isBreak first then [] else ['\n']) ++ blanks indent, ?_⟩
  simp only [under, List.append_assoc]

theorem exists_lines (first second rest : List Char) :
    ∃ before, under 0 first (under 0 second rest) = before ++ rest := by
  obtain ⟨between, hsecond⟩ := exists_under 0 second rest
  obtain ⟨between', hfirst⟩ := exists_under 0 first (under 0 second rest)
  refine ⟨first ++ between' ++ (second ++ between), ?_⟩
  rw [hfirst, hsecond]
  simp only [List.append_assoc]

/-- Behind digits a line ends. -/
theorem under_digits (before : List Char) (n : Nat) (second : List Char) :
    under 0 (before ++ Nat.toDigits 10 n) second =
      before ++ Nat.toDigits 10 n ++ '\n' :: second := by
  have hne : Nat.toDigits 10 n ≠ [] := Nat.toDigits_ne_nil
  have hdigit : ((Nat.toDigits 10 n).getLast hne).isDigit = true :=
    Json.areDigits_toDigits n _ (List.getLast_mem hne)
  have hends : endsIn isBreak (before ++ Nat.toDigits 10 n) = false := by
    rw [endsIn, List.getLast?_append_of_ne_nil _ hne, List.getLast?_eq_some_getLast hne]
    exact isBreak_of_isDigit hdigit
  simp [under, hends, blanks]

theorem field_service (n : Nat) :
    field 0 "service" (.map [("port", .ofNat n)]) =
      "service:\n  port: ".toList ++ Nat.toDigits 10 n := by
  have hkey (key : String) (indent : Nat) (h : styleOf key = .plain) :
      scalar indent key = key.toList := by
    rw [scalar, h]
  have hservice : isSimpleKey "service" = true := by decide +kernel
  have hport : isSimpleKey "port" = true := by decide +kernel
  simp only [field, fields, hservice, hport, if_true, hkey "service" _ (by decide +kernel),
    hkey "port" _ (by decide +kernel), ofNat, node]
  rfl

/-- The values have a line with the port. -/
theorem exists_write_valuesYaml (name : String) (port : UInt16) (healthCheck : Option String) :
    ∃ before after, (valuesYaml name port healthCheck).write =
      before ++ "service:\n  port: " ++ OptionValue.portText port ++ "\n" ++ after := by
  have hlines : ∃ before after, under 0 (node 0 (valuesYaml name port healthCheck)) [] =
      before ++ "service:\n  port: ".toList ++ Nat.toDigits 10 port.toNat ++ '\n' :: after := by
    simp only [valuesYaml, List.cons_append, List.nil_append]
    cases healthCheck with
    | none =>
      simp only [node, fields, field_service]
      obtain ⟨before, hbefore⟩ := exists_lines _ _ _
      rw [hbefore, ← List.append_assoc, under_digits]
      exact ⟨before, [], rfl⟩
    | some path =>
      simp only [node, fields, field_service, under_digits]
      generalize field 0 "healthCheck" _ = health
      obtain ⟨before, hbefore⟩ := exists_lines _ _ _
      obtain ⟨last, hlast⟩ := exists_under 0 _ []
      refine ⟨before, health ++ last, ?_⟩
      rw [hlast, hbefore]
      simp only [List.append_assoc, List.cons_append, List.append_nil]
  obtain ⟨before, after, h⟩ := hlines
  refine ⟨String.ofList before, String.ofList after, String.toList_inj.1 ?_⟩
  simp [write, h, OptionValue.portText]

end DeployFiles

namespace Release

open OptionValue

theorem get?_setValuesOf_port (name : String) (options : OptionMap) :
    (setValuesOf name options).get? "service.port" =
      (options.get? "port").bind OptionValue.scalarText? := by
  unfold setValuesOf
  cases (options.get? "port").bind OptionValue.scalarText? <;>
    cases options.text? "healthCheckPath" <;>
      simp [Dict.get?_insert, Dict.get?_ofEntries, Dict.get?]

/-- The port that a release sets is that of the option `port`, in decimal digits, exactly if the
option spells it so or has no text. Where the option names a port the release sets a text that is
read as it and the values of the chart have it; where the release sets none they have the project's
own. -/
theorem compiled_port (present : Path → Bool) (root : Path) (charts : ChartTable) (w : Workspace)
    (project : String) (p : Project) (key name : String) (options : OptionMap) :
    let r := compile present root charts w project p key name options
    let generated := DeployFiles.portFor p options .helm
    (r.setValues.get? "service.port" = (Settings.portOption? options).map portText ↔
        ∀ v, options.get? "port" = some v → v.SpellsPort) ∧
      (∀ n, Settings.portOption? options = some n → generated = n ∧
        ∃ text, r.setValues.get? "service.port" = some text ∧ readPort? text = some n) ∧
      (r.setValues.get? "service.port" = none →
        generated = Settings.portOf p "" Deployer.helm.id) ∧
      ∃ before after, (⟨"values.yaml"⟩,
          before ++ "service:\n  port: " ++ portText generated ++ "\n" ++ after) ∈
        DeployFiles.files .helm project p options := by
  intro r generated
  have hset : r.setValues.get? "service.port" = (options.get? "port").bind scalarText? :=
    get?_setValuesOf_port name options
  have hport : Settings.portOption? options = (options.get? "port").bind asPort? := rfl
  refine ⟨?_, fun n hn => ?_, fun hnone => ?_, ?_⟩
  · rw [hset, hport]
    cases options.get? "port" with
    | none => simp
    | some v => simpa using scalarText?_eq_portText_iff
  · refine ⟨by simp only [generated, DeployFiles.portFor, hn, Option.getD_some], ?_⟩
    obtain ⟨v, hv, hn⟩ := Option.bind_eq_some_iff.1 (hport ▸ hn)
    rw [hset, hv]
    exact exists_scalarText?_of_asPort? hn
  · have hnone : Settings.portOption? options = none := by
      rw [hset] at hnone
      rw [hport]
      refine Option.eq_none_iff_forall_ne_some.2 fun n hn => ?_
      obtain ⟨v, hv, hn⟩ := Option.bind_eq_some_iff.1 hn
      obtain ⟨text, htext, -⟩ := exists_scalarText?_of_asPort? hn
      rw [hv, Option.bind_some, htext] at hnone
      cases hnone
    simp only [generated, DeployFiles.portFor, hnone, Option.getD_none]
  · obtain ⟨before, after, hwrite⟩ := DeployFiles.exists_write_valuesYaml project generated
      (options.text? "healthCheckPath")
    refine ⟨before, after, hwrite ▸ ?_⟩
    simp [DeployFiles.files, DeployFiles.helmBase, generated]

/-- A blank text names no port and the values have the project's own, but a release sets it. -/
theorem blank_port_set :
    let options : OptionMap := [("port", .text "")]
    let r := compile (fun _ => false) ⟨"."⟩ .builtin default "api" default "dev" "api" options
    Settings.portOption? options = none ∧ DeployFiles.portFor default options .helm = 8080 ∧
      r.setValues.get? "service.port" = some "" := by
  decide +kernel

end Release
end Rollout
