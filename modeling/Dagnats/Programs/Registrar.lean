import Mathlib.Data.List.Infix
import Mathlib.Logic.Function.Basic

/-!
# The registrar of programs

A program is registered with a join key, is pending until its key's holder
confirms, and may then change its manifest. Each request is one step here; what
admission checks besides the key is part of the `Choice`.
-/

namespace Dagnats.Programs

/-- `other` stands for the fields that a join key does not limit. -/
structure Manifest where
  name : String
  version : String := ""
  protocols : List String := []
  reads : List String := []
  discovers : List String := []
  other : String := ""
  deriving DecidableEq

structure Record where
  manifest : Manifest
  publicKey : String
  pending : Bool := false
  pendingUntil : ℕ := 0

def Record.expired (record : Record) (now : ℕ) : Bool :=
  record.pending && record.pendingUntil ≤ now

structure JoinKey where
  id : String
  nameGlob : String := ""

/-- `path.Match`, for the patterns of a join key and names without a slash. -/
def globMatch : List Char → List Char → Bool
  | [], s => s.isEmpty
  | '*' :: glob, s => s.tails.any (globMatch glob)
  | '?' :: _, [] => false
  | '?' :: glob, _ :: s => globMatch glob s
  | _ :: _, [] => false
  | c :: glob, c' :: s => c = c' && globMatch glob s

def JoinKey.allowsName (key : JoinKey) (name : String) : Bool :=
  key.nameGlob = "" || globMatch key.nameGlob.toList name.toList

def protocolRoot (protocol : String) : String :=
  String.ofList (protocol.toList.takeWhile (· ≠ '.'))

/-- The program whose bucket a read names, in whatever domain. -/
def readOwner (read : String) : String :=
  let bucket := if ':' ∈ read.toList then (read.toList.dropWhile (· ≠ ':')).tail else read.toList
  String.ofList (bucket.takeWhile (· ≠ '_'))

def JoinKey.protocolOutside (key : JoinKey) (protocols : List String) : Bool :=
  protocols.any fun protocol => !key.allowsName (protocolRoot protocol)

/-- `joinKey` is the secret in the request, if there is one: the key that the
store has for it, if it is usable. -/
structure Request where
  manifest : Manifest
  publicKey : String
  joinKey : Option (Option JoinKey) := none

def Request.name (req : Request) : String := req.manifest.name

def Request.verify (req : Request) : Option JoinKey :=
  req.joinKey.join.filter (·.allowsName req.name)

/-- What a changed manifest reaches for that the stored one did not. -/
structure Widening where
  protocols : List String
  reads : List String
  discovers : List String

def widened (stored changed : Manifest) : Widening where
  protocols := changed.protocols.filter (· ∉ stored.protocols)
  reads := changed.reads.filter (· ∉ stored.reads)
  discovers := changed.discovers.filter (· ∉ stored.discovers)

def Widening.none (w : Widening) : Bool :=
  w.protocols.isEmpty && w.reads.isEmpty && w.discovers.isEmpty

def covers (key : JoinKey) (w : Widening) : Bool :=
  !key.protocolOutside w.protocols && w.reads.all fun read => key.allowsName (readOwner read)

/-- Whether the manifests differ in `Version` alone. -/
def versionOnly (stored changed : Manifest) : Bool :=
  { stored with version := "" } = { changed with version := "" }

/-- The key that a registration is admitted by; an open server needs none. -/
def reserveUse (isOpen : Bool) (req : Request) : Option (Option JoinKey) :=
  if req.joinKey = none ∧ isOpen then some none
  else (req.verify.filter fun key => !key.protocolOutside req.manifest.protocols).map some

/-- The key that a change is admitted by, if it needs one. -/
def reserveWidening (isOpen : Bool) (req : Request) (w : Widening) : Option (Option JoinKey) :=
  if w.none ∨ req.joinKey = none ∧ isOpen then some none
  else (req.verify.filter (covers · w)).map some

/-- What is not decided here: whether the other checks pass, whether provisioning
succeeds, and the time. -/
structure Choice where
  ok : Bool := true
  provisioned : Bool := true
  now : ℕ := 0

/-- The record of a program, and the manifests that were written since it was
created, newest first, with the key that each was admitted by. -/
structure Stored where
  record : Option Record := none
  writes : List (Manifest × Option JoinKey) := []

namespace Stored

def write (s : Stored) (record : Record) (key : Option JoinKey) : Stored :=
  ⟨some record, (record.manifest, key) :: s.writes⟩

/-- `expireIfStale` -/
def expire (s : Stored) (now : ℕ) : Stored :=
  if s.record.any (·.expired now) then {} else s

variable (isOpen : Bool) (req : Request) (c : Choice)

def register (pendingTTL : ℕ) (s : Stored) : Stored :=
  let s := s.expire c.now
  match s.record, reserveUse isOpen req with
  | none, some key =>
    if c.ok then write {} ⟨req.manifest, req.publicKey, true, c.now + pendingTTL⟩ key else s
  | _, _ => s

/-- A change that is not provisioned is rolled back. -/
def update (record : Record) (s : Stored) : Stored :=
  let changed := { record with manifest := req.manifest }
  if !c.ok then s
  else if versionOnly record.manifest req.manifest then s.write changed none
  else match reserveWidening isOpen req (widened record.manifest req.manifest) with
    | none => s
    | some key =>
      if c.provisioned then s.write changed key else (s.write changed key).write record none

def confirm (s : Stored) : Stored :=
  match s.record with
  | none => s
  | some record =>
    if record.publicKey ≠ req.publicKey then s
    else if record.pending then
      if record.expired c.now || record.manifest ≠ req.manifest then s
      else if c.provisioned then s.write { record with pending := false, pendingUntil := 0 } none
      else {}
    else if record.manifest = req.manifest then s
    else s.update isOpen req c record

end Stored

inductive Op where
  | register (req : Request) (c : Choice) (pendingTTL : ℕ)
  | confirm (req : Request) (c : Choice)
  | expire (name : String) (now : ℕ)

def act (isOpen : Bool) (programs : String → Stored) : Op → String → Stored
  | .register req c ttl =>
    Function.update programs req.name ((programs req.name).register isOpen req c ttl)
  | .confirm req c => Function.update programs req.name ((programs req.name).confirm isOpen req c)
  | .expire name now => Function.update programs name ((programs name).expire now)

/-- The programs after a sequence of requests, where none was registered before. -/
def run (isOpen : Bool) (ops : List Op) : String → Stored :=
  ops.foldl (act isOpen) fun _ => {}

end Dagnats.Programs
