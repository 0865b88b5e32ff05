import Rollout.Options.Value
import Rollout.Text.Split

/-!
# Answers from the command line

Answers are given as `KEY=VALUE`. A value that is the JSON of an option keeps its type, any
other value is a text; of two answers with one key the later counts.
-/

namespace Rollout.Command

/-- Why an answer cannot be taken. -/
inductive AnswerError where
  | noValue (answer : String)
  | emptyKey (answer : String)
deriving DecidableEq, Repr

def AnswerError.message : AnswerError → String
  | noValue answer => "invalid --set '" ++ answer ++ "': expected KEY=VALUE"
  | emptyKey answer => "invalid --set '" ++ answer ++ "': empty key"

/-- The value that a text stands for. -/
def answerValue (text : String) : OptionValue := (OptionValue.read? text).getD (.text text)

def readAnswer (answer : String) : Except AnswerError (String × OptionValue) :=
  match Text.cutAt '=' answer.toList with
  | none => .error (.noValue answer)
  | some (key, value) =>
    let key := Text.trim (String.ofList key)
    if key = "" then .error (.emptyKey answer) else .ok (key, answerValue (String.ofList value))

/-- The options that answers amount to. -/
def readAnswers (answers : List String) : Except AnswerError OptionMap :=
  (answers.mapM readAnswer).map Dict.ofEntries

end Rollout.Command
