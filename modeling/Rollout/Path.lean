import Rollout.Text.Split

/-!
# Paths

A path is its text; joining keeps the text as it is and does not tidy it. Two paths are the
same when their parts agree (`Path.same`): repeated slashes, inner single dots and a slash at
the end do not matter, while double dots and letter case do.
-/

namespace Rollout

/-- A path by its text. -/
structure Path where
  text : String
deriving DecidableEq, Repr, Inhabited

namespace Path

def isAbsolute (p : Path) : Bool := p.text.toList.head? = some '/'

/-- The text between the slashes, a leading slash aside. -/
def segments (p : Path) : List String :=
  let cs := p.text.toList
  (Text.splitOn '/' (if p.isAbsolute then cs.drop 1 else cs)).map String.ofList

/-- A relative path may start with a dot; elsewhere a single dot names nothing. -/
def isIdle (segment : String) : Bool := segment = "" || segment = "."

/-- The segments without idle ones, the dot at the start of a relative path aside. -/
def names (p : Path) : List String :=
  match p.segments with
  | [] => []
  | first :: rest =>
    let rest := rest.filter (!isIdle ·)
    if first = "" ∨ (first = "." ∧ p.isAbsolute) then rest else first :: rest

/-- Whether two paths have the same parts. -/
def same (p q : Path) : Bool := p.isAbsolute == q.isAbsolute && p.names == q.names

/-- The path `q` seen from `p`: an absolute `q` stands for itself. -/
def join (p q : Path) : Path :=
  if q.isAbsolute ∨ p.text = "" then q
  else if p.text.toList.getLast? = some '/' then ⟨p.text ++ q.text⟩
  else ⟨p.text ++ "/" ++ q.text⟩

/-- The path of an entry of the folder `p`. -/
def child (p : Path) (name : String) : Path := p.join ⟨name⟩

def ofSegments (absolute : Bool) (segments : List String) : Path :=
  ⟨(if absolute then "/" else "") ++ Text.joined "/" segments⟩

/-- Drops segments that name nothing from the end of a path; `segments` is in reverse order. -/
def dropIdleEnd (absolute : Bool) : List String → List String
  | [] => []
  | [segment] =>
    if segment = "" ∨ (segment = "." ∧ absolute) then [] else [segment]
  | segment :: rest => if isIdle segment then dropIdleEnd absolute rest else segment :: rest

/-- The folder of a path: the path without its last part, if it has one. -/
def parent? (p : Path) : Option Path :=
  match dropIdleEnd p.isAbsolute p.segments.reverse with
  | [] => none
  | _ :: rest => some (ofSegments p.isAbsolute (dropIdleEnd p.isAbsolute rest).reverse)

/-- The folder of a path, the current folder where the path names none. -/
def folder (p : Path) : Path :=
  match p.parent? with
  | some q => if q.text = "" then ⟨"."⟩ else q
  | none => ⟨"."⟩

/-- A path, its folder, the folder of that, and so on. -/
def ancestorsWithin : Nat → Path → List Path
  | 0, p => [p]
  | fuel + 1, p => p :: match p.parent? with
    | some q => ancestorsWithin fuel q
    | none => []

def ancestors (p : Path) : List Path := ancestorsWithin p.segments.length p

/-- Drops as many named segments as `count` says. -/
def dropNames : Nat → List String → List String
  | 0, segments => segments
  | _, [] => []
  | count + 1, segment :: rest =>
    if isIdle segment then dropNames (count + 1) rest else dropNames count rest

/-- The rest of `p` below `base`, if `p` starts with the parts of `base`. -/
def below? (base p : Path) : Option Path :=
  if base.isAbsolute == p.isAbsolute && base.names.isPrefixOf p.names then
    let segments := match base.names with
      | [] => p.segments
      | "." :: names => dropNames names.length (p.segments.drop 1)
      | names => dropNames names.length p.segments
    let segments := if base.names = [] ∧ p.isAbsolute = false then segments
      else segments.dropWhile isIdle
    let absolute := base.isAbsolute || base.names ≠ []
    some ⟨Text.joined "/" (dropIdleEnd absolute segments.reverse).reverse⟩
  else none

end Path
end Rollout
