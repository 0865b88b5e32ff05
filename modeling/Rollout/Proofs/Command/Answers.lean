import Mathlib.Data.List.Forall2
import Mathlib.Tactic.Common
import Rollout.Command.Answers
import Rollout.Proofs.Options.Canonical
import Rollout.Proofs.Text.Split
import Rollout.Proofs.Text.Trim

/-!
# Answers carry options

An answer is cut at its first equals sign: what stands before it, trimmed, is the key, and what
stands behind it is the JSON of a value or a text (`Gives`). Without an equals sign or a key it is
refused (`Refused`), and with it all answers. The last answer for a key counts (`LastGives`). So
options come through as answers if each is written as its key, the sign and its JSON, exactly if
none is nested deeper than the reader goes (`readAnswers_written_iff`).
-/

namespace Rollout.Command

/-! ### One answer -/

/-- An answer is a text without an equals sign, one, and another text. -/
def IsCut (answer before after : String) : Prop :=
  answer = before ++ "=" ++ after ∧ '=' ∉ before.toList

/-- What a text stands for: the value that it is the JSON of, or itself. -/
def StandsFor (text : String) (v : OptionValue) : Prop :=
  OptionValue.read? text = some v ∨ OptionValue.read? text = none ∧ v = .text text

/-- An answer gives a value for a key. -/
def Gives (answer key : String) (v : OptionValue) : Prop :=
  ∃ before after, IsCut answer before after ∧ Text.isBlank before = false ∧
    key = Text.trim before ∧ StandsFor after v

/-- An answer cannot be taken. -/
inductive Refused (answer : String) : AnswerError → Prop
  | noValue (h : '=' ∉ answer.toList) : Refused answer (.noValue answer)
  | emptyKey {before after : String} (cut : IsCut answer before after)
      (blank : Text.isBlank before = true) : Refused answer (.emptyKey answer)

section

variable {answer before after key text : String} {v : OptionValue} {e : AnswerError}

theorem isCut_iff :
    IsCut answer before after ↔
      Text.cutAt '=' answer.toList = some (before.toList, after.toList) := by
  rw [Text.cutAt_eq_some_iff, IsCut, ← String.toList_inj, String.toList_append,
    String.toList_append, List.append_assoc]
  rfl

theorem readAnswer_of_isCut (h : IsCut answer before after) :
    readAnswer answer = if Text.isBlank before then .error (.emptyKey answer)
      else .ok (Text.trim before, answerValue after) := by
  rw [readAnswer, isCut_iff.1 h]
  simp only [String.ofList_toList, Text.trim_eq_empty_iff]

theorem readAnswer_of_not_mem (h : '=' ∉ answer.toList) :
    readAnswer answer = .error (.noValue answer) := by
  rw [readAnswer, Text.cutAt_eq_none_iff.2 h]

theorem not_mem_or_isCut (answer : String) :
    '=' ∉ answer.toList ∨ ∃ before after, IsCut answer before after := by
  rw [← Text.cutAt_eq_none_iff]
  cases h : Text.cutAt '=' answer.toList with
  | none => exact .inl rfl
  | some cut =>
    refine .inr ⟨String.ofList cut.1, String.ofList cut.2, isCut_iff.2 ?_⟩
    rw [h, String.toList_ofList, String.toList_ofList]

theorem answerValue_eq_iff : answerValue text = v ↔ StandsFor text v := by
  unfold answerValue StandsFor
  cases OptionValue.read? text <;> simp [eq_comm]

theorem readAnswer_eq_ok_iff : readAnswer answer = .ok (key, v) ↔ Gives answer key v := by
  constructor
  · intro h
    rcases not_mem_or_isCut answer with hno | ⟨before, after, hcut⟩
    · rw [readAnswer_of_not_mem hno] at h
      cases h
    · rw [readAnswer_of_isCut hcut] at h
      split_ifs at h with hblank
      cases h
      exact ⟨before, after, hcut, by simpa using hblank, rfl, answerValue_eq_iff.1 rfl⟩
  · rintro ⟨before, after, hcut, hkey, rfl, hvalue⟩
    rw [readAnswer_of_isCut hcut, if_neg (by simp [hkey]), answerValue_eq_iff.2 hvalue]

theorem readAnswer_eq_error_iff : readAnswer answer = .error e ↔ Refused answer e := by
  constructor
  · intro h
    rcases not_mem_or_isCut answer with hno | ⟨before, after, hcut⟩
    · rw [readAnswer_of_not_mem hno] at h
      cases h
      exact .noValue hno
    · rw [readAnswer_of_isCut hcut] at h
      split_ifs at h with hblank
      cases h
      exact .emptyKey hcut hblank
  · rintro (hno | ⟨hcut, hblank⟩)
    · exact readAnswer_of_not_mem hno
    · rw [readAnswer_of_isCut hcut, if_pos hblank]

end

/-! ### All answers -/

/-- The last answer for a key gives a value. -/
def LastGives (answers : List String) (key : String) (v : OptionValue) : Prop :=
  ∃ earlier answer later, answers = earlier ++ answer :: later ∧ Gives answer key v ∧
    ∀ a ∈ later, ∀ u, ¬ Gives a key u

section

variable {answers : List String} {entries : List (String × OptionValue)} {o : OptionMap}
  {key : String} {v : OptionValue} {e : AnswerError}

theorem mapM_readAnswer_cases (answers : List String) :
    (∃ entries, answers.mapM readAnswer = .ok entries ∧
      List.Forall₂ (fun a e => readAnswer a = .ok e) answers entries) ∨
    ∃ e, answers.mapM readAnswer = .error e ∧ ∃ answer ∈ answers, Refused answer e := by
  induction answers with
  | nil => exact .inl ⟨[], rfl, .nil⟩
  | cons answer answers ih =>
    rw [List.mapM_cons]
    cases hanswer : readAnswer answer with
    | error e =>
      exact .inr ⟨e, rfl, answer, List.mem_cons_self, readAnswer_eq_error_iff.1 hanswer⟩
    | ok entry =>
      rcases ih with ⟨entries, hrest, hentries⟩ | ⟨e, hrest, a, ha, hrefused⟩
      · rw [hrest]
        exact .inl ⟨entry :: entries, rfl, .cons hanswer hentries⟩
      · rw [hrest]
        exact .inr ⟨e, rfl, a, List.mem_cons_of_mem _ ha, hrefused⟩

theorem readAnswers_eq_ok (h : readAnswers answers = .ok o) :
    ∃ entries, o = Dict.ofEntries entries ∧
      List.Forall₂ (fun a e => readAnswer a = .ok e) answers entries := by
  unfold readAnswers at h
  rcases mapM_readAnswer_cases answers with ⟨entries, hmapM, hentries⟩ | ⟨e, hmapM, -⟩
  · rw [hmapM] at h
    exact ⟨entries, (Except.ok.inj h).symm, hentries⟩
  · rw [hmapM] at h
    cases h

theorem refused_of_readAnswers (h : readAnswers answers = .error e) :
    ∃ answer ∈ answers, Refused answer e := by
  unfold readAnswers at h
  rcases mapM_readAnswer_cases answers with ⟨entries, hmapM, -⟩ | ⟨e', hmapM, hrefused⟩
  · rw [hmapM] at h
    cases h
  · rw [hmapM] at h
    exact Except.error.inj h ▸ hrefused

theorem not_refused_of_forall₂
    (h : List.Forall₂ (fun a e => readAnswer a = .ok e) answers entries) :
    ∀ answer ∈ answers, ∀ e, ¬ Refused answer e := by
  induction h with
  | nil => nofun
  | cons hread _ ih =>
    refine List.forall_mem_cons.2 ⟨fun e hrefused => ?_, ih⟩
    rw [readAnswer_eq_error_iff.2 hrefused] at hread
    cases hread

/-- Answers are taken all or none. -/
theorem readAnswers_fails_iff :
    (∃ e, readAnswers answers = .error e) ↔ ∃ answer ∈ answers, ∃ e, Refused answer e := by
  constructor
  · rintro ⟨e, h⟩
    obtain ⟨answer, hmem, hrefused⟩ := refused_of_readAnswers h
    exact ⟨answer, hmem, e, hrefused⟩
  · rintro ⟨answer, hmem, e, hrefused⟩
    cases h : readAnswers answers with
    | error e => exact ⟨e, rfl⟩
    | ok o =>
      obtain ⟨entries, -, hentries⟩ := readAnswers_eq_ok h
      exact absurd hrefused (not_refused_of_forall₂ hentries answer hmem e)

/-- The first of several entries with one key is that of the first answer for it. -/
theorem get?_eq_some_iff_of_forall₂
    (h : List.Forall₂ (fun a e => readAnswer a = .ok e) answers entries) :
    Dict.get? key entries = some v ↔ ∃ earlier answer later,
      answers = earlier ++ answer :: later ∧ Gives answer key v ∧
        ∀ a ∈ earlier, ∀ u, ¬ Gives a key u := by
  induction h with
  | nil => simp [Dict.get?]
  | @cons answer entry answers entries hread _ ih =>
    obtain ⟨k, w⟩ := entry
    have hgives {key : String} {u : OptionValue} : Gives answer key u ↔ k = key ∧ w = u := by
      rw [← readAnswer_eq_ok_iff, hread, Except.ok.injEq, Prod.mk.injEq]
    rw [Dict.get?]
    split_ifs with hk
    · constructor
      · intro hw
        exact ⟨[], answer, answers, rfl, hgives.2 ⟨hk, Option.some.inj hw⟩, by simp⟩
      · rintro ⟨_ | ⟨b, earlier⟩, a, later, hsplit, ha, hearlier⟩
        · cases hsplit
          rw [(hgives.1 ha).2]
        · cases hsplit
          exact absurd (hgives.2 ⟨hk, rfl⟩) (hearlier answer List.mem_cons_self w)
    · rw [ih]
      constructor
      · rintro ⟨earlier, a, later, rfl, ha, hearlier⟩
        have hnot : ∀ u, ¬ Gives answer key u := fun u hu => hk (hgives.1 hu).1
        exact ⟨answer :: earlier, a, later, rfl, ha, List.forall_mem_cons.2 ⟨hnot, hearlier⟩⟩
      · rintro ⟨_ | ⟨b, earlier⟩, a, later, hsplit, ha, hearlier⟩
        · cases hsplit
          exact absurd (hgives.1 ha).1 hk
        · cases hsplit
          exact ⟨earlier, a, later, rfl, ha, fun a ha => hearlier a (List.mem_cons_of_mem _ ha)⟩

/-- The options that answers amount to have the last value of each key. -/
theorem get?_readAnswers_iff (h : readAnswers answers = .ok o) :
    o.get? key = some v ↔ LastGives answers key v := by
  obtain ⟨entries, rfl, hentries⟩ := readAnswers_eq_ok h
  rw [Dict.get?_ofEntries, get?_eq_some_iff_of_forall₂ (List.forall₂_reverse_iff.2 hentries)]
  constructor
  · rintro ⟨later, answer, earlier, hsplit, hanswer, hlater⟩
    refine ⟨earlier.reverse, answer, later.reverse, ?_, hanswer, by simpa using hlater⟩
    rw [← List.reverse_inj, hsplit]
    simp
  · rintro ⟨earlier, answer, later, rfl, hanswer, hlater⟩
    exact ⟨later.reverse, answer, earlier.reverse, by simp, hanswer, by simpa using hlater⟩

theorem sorted_readAnswers (h : readAnswers answers = .ok o) : o.Sorted := by
  obtain ⟨entries, rfl, -⟩ := readAnswers_eq_ok h
  exact Dict.sorted_ofEntries entries

theorem StandsFor.readable {text : String} (h : StandsFor text v) : v.Readable := by
  rcases h with hread | ⟨-, rfl⟩
  · obtain ⟨source, -, hv⟩ := Option.bind_eq_some_iff.1 hread
    exact ⟨_, source, hv⟩
  · exact OptionValue.readable_text text

/-- All answers that the command line takes are readable. -/
theorem readable_readAnswers (h : readAnswers answers = .ok o) : ∀ e ∈ o, e.2.Readable := by
  intro e he
  have hget := (Dict.get?_eq_some_iff (sorted_readAnswers h)).2 he
  obtain ⟨_, answer, _, -, hgives, -⟩ := (get?_readAnswers_iff h).1 hget
  obtain ⟨before, after, -, -, -, hvalue⟩ := hgives
  exact hvalue.readable

end

/-! ### Options as answers -/

/-- A key that an answer can be given for. -/
structure IsKey (key : String) : Prop where
  notBlank : Text.isBlank key = false
  trimmed : Text.trim key = key
  uncut : '=' ∉ key.toList

instance (key : String) : Decidable (IsKey key) :=
  decidable_of_iff (Text.isBlank key = false ∧ Text.trim key = key ∧ '=' ∉ key.toList)
    ⟨fun ⟨h₁, h₂, h₃⟩ => ⟨h₁, h₂, h₃⟩, fun ⟨h₁, h₂, h₃⟩ => ⟨h₁, h₂, h₃⟩⟩

/-- An option as an answer. -/
def written (option : String × OptionValue) : String :=
  option.1 ++ "=" ++ option.2.toJson.compact

theorem readAnswer_written {option : String × OptionValue} (h : IsKey option.1) :
    readAnswer (written option) = .ok (option.1, answerValue option.2.toJson.compact) := by
  have hcut : IsCut (written option) option.1 option.2.toJson.compact := ⟨rfl, h.uncut⟩
  rw [readAnswer_of_isCut hcut, h.notBlank, h.trimmed]
  rfl

theorem mapM_written {options : List (String × OptionValue)} (h : ∀ e ∈ options, IsKey e.1) :
    (options.map written).mapM readAnswer =
      .ok (options.map fun e => (e.1, answerValue e.2.toJson.compact)) := by
  induction options with
  | nil => rfl
  | cons e rest ih =>
    obtain ⟨hkey, hrest⟩ := List.forall_mem_cons.1 h
    rw [List.map_cons, List.mapM_cons, readAnswer_written hkey, ih hrest]
    rfl

/-- A value comes through as an answer exactly if it is nested no deeper than the reader goes. -/
theorem answerValue_compact_iff {v : OptionValue} (hv : v.Canonical) (hf : v.toJson.Faithful) :
    answerValue v.toJson.compact = v ↔ v.depth ≤ Json.nestingLimit := by
  rw [answerValue_eq_iff, StandsFor, hv.read?_compact_iff hf]
  refine ⟨fun h => ?_, .inl⟩
  rcases h with h | ⟨-, h⟩
  · exact h
  · rw [h]
    exact Nat.zero_le _

/-- So do options, given in any order. -/
theorem readAnswers_written_iff {o : OptionMap} {options : List (String × OptionValue)}
    (hsorted : o.Sorted) (hperm : options.Perm o) (hkeys : ∀ e ∈ o, IsKey e.1)
    (hvalues : ∀ e ∈ o, e.2.Canonical) (hf : o.toJson.Faithful) :
    readAnswers (options.map written) = .ok o ↔ ∀ e ∈ o, e.2.depth ≤ Json.nestingLimit := by
  have hthrough (e : String × OptionValue) (he : e ∈ o) :
      answerValue e.2.toJson.compact = e.2 ↔ e.2.depth ≤ Json.nestingLimit :=
    answerValue_compact_iff (hvalues e he) (OptionValue.faithful_member hf e he)
  have hnodup : (Dict.keys options).Nodup :=
    (hperm.map Prod.fst).nodup_iff.2 hsorted.nodup_keys
  rw [readAnswers, mapM_written fun e he => hkeys e (hperm.mem_iff.1 he)]
  simp only [Except.map, Except.ok.injEq]
  generalize hread : options.map (fun e => (e.1, answerValue e.2.toJson.compact)) = read
  constructor
  · intro h e he
    have hreadKeys : Dict.keys read = Dict.keys options := by
      rw [← hread]
      simp [Dict.keys]
    have hmem : (e.1, answerValue e.2.toJson.compact) ∈ o := by
      rw [← h, Dict.mem_ofEntries (hreadKeys ▸ hnodup), ← hread]
      exact List.mem_map.2 ⟨e, hperm.mem_iff.2 he, rfl⟩
    have hget := (Dict.get?_eq_some_iff hsorted).2 hmem
    rw [(Dict.get?_eq_some_iff hsorted).2 he] at hget
    exact (hthrough e he).1 (Option.some.inj hget).symm
  · intro h
    have hsame : read = options := by
      rw [← hread]
      refine (List.map_congr_left fun e he => ?_).trans (List.map_id options)
      have he := hperm.mem_iff.1 he
      rw [(hthrough e he).2 (h e he), id]
    rw [hsame]
    refine Dict.eq_of_mem_iff (Dict.sorted_ofEntries options) hsorted fun e => ?_
    rw [Dict.mem_ofEntries hnodup, hperm.mem_iff]

/-- Answers are refused exactly if one of them is, and with its error. Otherwise they amount to
options with the value of the last answer for each key. So options that are written as answers, in
any order, are what these amount to, exactly if none is nested deeper than the reader goes. -/
theorem options_carried_by_answers :
    (∀ answers, (∃ e, readAnswers answers = .error e) ↔
      ∃ answer ∈ answers, ∃ e, Refused answer e) ∧
    (∀ answers e, readAnswers answers = .error e → ∃ answer ∈ answers, Refused answer e) ∧
    (∀ answers o, readAnswers answers = .ok o →
      o.Sorted ∧ ∀ key v, o.get? key = some v ↔ LastGives answers key v) ∧
    ∀ (o : OptionMap) (options : List (String × OptionValue)), o.Sorted → options.Perm o →
      (∀ e ∈ o, IsKey e.1) → (∀ e ∈ o, e.2.Canonical) → o.toJson.Faithful →
        (readAnswers (options.map written) = .ok o ↔ ∀ e ∈ o, e.2.depth ≤ Json.nestingLimit) :=
  ⟨fun _ => readAnswers_fails_iff, fun _ _ => refused_of_readAnswers,
    fun _ _ h => ⟨sorted_readAnswers h, fun _ _ => get?_readAnswers_iff h⟩,
    fun _ _ => readAnswers_written_iff⟩

/-- Options of every kind, some with equals signs in them. -/
def everyKind : OptionMap :=
  [("args", .list [.text "--mode=a=b", .bool true]), ("port", .integer 9000),
    ("scale", .map [("=", .real ⟨0x3FF8000000000000⟩), ("max", .text "9000")])]

theorem everyKind_carried :
    readAnswers ["scale=\x7b\"=\":1.5,\"max\":\"9000\"\x7d", "args=[\"--mode=a=b\",true]",
      "port=9000"] = .ok everyKind := by
  have hvalues : ∀ e ∈ everyKind, e.2.Canonical := by
    simp only [everyKind, List.forall_mem_cons]
    refine ⟨.list ?_, .integer _, .map (by decide) ?_, nofun⟩
    · simpa using ⟨.text _, .bool _⟩
    · simpa using ⟨.real _, .text _⟩
  have hcarried := (options_carried_by_answers.2.2.2 everyKind
    (everyKind.drop 2 ++ everyKind.take 2) (by decide) List.perm_append_comm (by decide +kernel)
    hvalues (by decide +kernel)).2 (by decide)
  have hwritten : (everyKind.drop 2 ++ everyKind.take 2).map written =
      ["scale=\x7b\"=\":1.5,\"max\":\"9000\"\x7d", "args=[\"--mode=a=b\",true]",
        "port=9000"] := by
    decide +kernel
  rwa [hwritten] at hcarried

end Rollout.Command
