import GoTrace.FileTree.Walk

/-!
# The environment of the toolchain

Where the toolchain keeps packages: the root of the toolchain itself, the work spaces, and the cache
of modules. Each has a variable, and a default for when the variable is missing or empty. For the root the
default is what the command `go` says.
-/

namespace GoTrace

/-- What comes of running the command `go`. -/
structure Inquiry where
  succeeded : Bool
  output : List UInt8
  files : FileSystem
deriving Inhabited

/-- The machine that a command runs on, as the command sees it. -/
structure Host where
  files : FileSystem
  settings : List (String × List UInt8)
  recordedHome : Option Path
  /-- What `go env GOROOT` comes to, if there is a command `go` that can be run. -/
  inquiry : Option Inquiry
deriving Inhabited

namespace Host

def setting? (host : Host) (name : String) : Option Path :=
  ((host.settings.lookup name).filter fun value => !value.isEmpty).map Path.mk

def home? (host : Host) : Option Path :=
  (host.setting? "HOME").or host.recordedHome

def pathList (list : Path) : List Path :=
  (Text.fieldsBy (· = Octet.colon) list.octets).map Path.mk

/-- The toolchain root that the command `go` reports: a text without the white space around it. -/
def reportedRoot? (host : Host) : Option Path := do
  let inquiry ← host.inquiry
  if inquiry.succeeded then
    let answer := Text.trimmed (← Text.ofOctets? inquiry.output)
    if answer = "" then none else some (.ofText answer)
  else none

/-- The files after the toolchain root has been found out. The command `go`, which may change files,
is asked for it only if no variable tells. -/
def filesAfterInquiry (host : Host) : FileSystem :=
  match host.setting? "GOROOT" with
  | some _ => host.files
  | none => (host.inquiry.map Inquiry.files).getD host.files

end Host

/-- Where the toolchain keeps packages. -/
structure GoEnvironment where
  goroot : Option Path
  gopath : List Path
  modcache : Option Path
deriving DecidableEq, Repr, Inhabited

namespace GoEnvironment

def ofHost (host : Host) : GoEnvironment :=
  let gopath := match host.setting? "GOPATH" with
    | some list => Host.pathList list
    | none => (host.home?.map fun home => home.join (.ofText "go")).toList
  { goroot := match host.setting? "GOROOT" with
      | some root => some root
      | none => host.reportedRoot?
    gopath := gopath
    modcache := (host.setting? "GOMODCACHE").or
      (gopath.head?.map fun first => (first.join (.ofText "pkg")).join (.ofText "mod")) }

end GoEnvironment

end GoTrace
