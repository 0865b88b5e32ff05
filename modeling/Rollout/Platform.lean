import Rollout.Text.Blank
import Rollout.Text.Lowercase

/-!
# Platforms

The platform that artifacts are built for, its aliases, and the flags that select its toolchain.
-/

namespace Rollout

/-- The platform that artifacts are built for. -/
inductive Platform where
  | host
  | linuxAmd64
  | linuxArm64
deriving DecidableEq, Repr, Inhabited

namespace Platform

def all : List Platform := [host, linuxAmd64, linuxArm64]

def id : Platform → String
  | host => "host"
  | linuxAmd64 => "linux/amd64"
  | linuxArm64 => "linux/arm64"

/-- The platform with exactly this id. -/
def ofId? (text : String) : Option Platform := all.find? (·.id = text)

def buildFlags : Platform → List String
  | host => []
  | linuxAmd64 =>
    ["--platforms=@io_bazel_rules_go//go/toolchain:linux_amd64",
      "--@io_bazel_rules_go//go/config:pure"]
  | linuxArm64 =>
    ["--platforms=@io_bazel_rules_go//go/toolchain:linux_arm64",
      "--@io_bazel_rules_go//go/config:pure"]

/-- Reads a platform by id or alias, in any letter case; blank text means the host. The error is
the message. -/
def read (text : String) : Except String Platform :=
  let name := Text.lowercase (Text.trim text)
  if name = "" ∨ name = "host" ∨ name = "native" then .ok host
  else if name = "linux/amd64" ∨ name = "linux_amd64" ∨ name = "amd64" then .ok linuxAmd64
  else if name = "linux/arm64" ∨ name = "linux_arm64" ∨ name = "arm64" then .ok linuxArm64
  else .error ("unknown platform '" ++ name ++ "'")

end Platform
end Rollout
