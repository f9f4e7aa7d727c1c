import Mathlib.Data.List.AList
import Soma.Guest.Identity
import Soma.Lib.Service
import Soma.Netd.Firewall
import Soma.Netd.Record

/-! # The broker's world and its actions

Everything a broker process reads and changes outside its own memory, and the actions it does so with.
One action is one system call, one tool invocation or one request to the kernel.

* **`World`**: the files of the ledger directory, the kernel objects of each bundle by the short name
  they are called by, and how often each conntrack zone was flushed. `drawn`, `epoch` and `trace` are
  no part of the broker's reality: they record which identities were drawn, how often the broker was
  started, and what it did that the results are about.
* **`Act`**, **`Answer`** and **`Choice`** are the actions, what they answer, and what the environment
  chooses in them: every step can fail, and a kernel change that fails may still have been made.
* **`exec`** is the meaning of an action. An identity is drawn from the operating system's random source;
  that none is drawn twice is an assumption on runs (`DrawsNew`).
* **`World.revive`** is what a new process finds: files and kernel objects stay, memory is gone.
-/

namespace Soma.Netd

open Soma.Codec Soma.Guest

/-! ## Names of files -/

inductive Kind where
  | assigned
  | released
deriving DecidableEq

structure Slot where
  bundle : BundleId
  generation : CleanupGeneration
deriving DecidableEq

def Slot.short (slot : Slot) : ShortName :=
  slot.bundle.shortHex

/-- A file of the ledger directory: a record, or the temporary file it is written to first. -/
inductive FileName where
  | record (kind : Kind) (slot : Slot)
  | temp (pid : ℕ) (kind : Kind) (slot : Slot)
deriving DecidableEq

def FileName.kind : FileName → Kind
  | .record kind _ => kind
  | .temp _ kind _ => kind

def FileName.slot : FileName → Slot
  | .record _ slot => slot
  | .temp _ _ slot => slot

def Slot.stem (slot : Slot) : List Char :=
  slot.bundle.bytes.1.flatMap hexByte ++ '-' :: (putWord slot.generation.value).flatMap hexByte

/-- The file name without its kind: `<bundle>-<generation>`, after `.tmp-<pid>-` for a temporary. -/
def FileName.stem : FileName → List Char
  | .record _ slot => slot.stem
  | .temp pid _ slot => ['.', 't', 'm', 'p', '-'] ++ Nat.toDigits 10 pid ++ '-' :: slot.stem

inductive IoError where
  | alreadyExists
  | other (errno : ℤ)
deriving DecidableEq

/-! ## Kernel objects -/

structure HostRuleset where
  names : BundleNames
  lease : Lease
  uplink : InterfaceName
  zone : ConntrackZone
  protected_ : ProtectedSet

inductive Link where
  | tap
  | sandboxVeth
  | hostVeth
deriving DecidableEq

structure BundleKernel where
  pin : Bool
  links : Link → Bool
  up : Link → Bool
  forwarding : Bool
  routed : Bool
  sandboxTable : Option SandboxRuleset
  hostTable : Option HostRuleset
  publicationTable : Option (List PublishedPort)

def BundleKernel.absent : BundleKernel :=
  ⟨false, fun _ => false, fun _ => false, false, false, none, none, none⟩

/-- One change to the kernel objects of a bundle. Forwarding is enabled on behalf of a receipt. -/
inductive KernelOp where
  | createPin
  | unshareAndPin
  | removePin
  | openPin
  | unmountPin
  | createVeth
  | disableIpv6
  | forwardingOff
  | forwardingOn (receipt : ActivationReceipt)
  | createTap (mac : Bytes 6) (gateway : U32)
  | setAddress (link : Link) (address : U32)
  | setUp (link : Link)
  | addRoute (link : Link) (destination : Cidr) (via : U32)
  | routeLocalnet
  | applySandbox (ruleset : SandboxRuleset)
  | applyHost (ruleset : HostRuleset)
  | applyPublication (published : List PublishedPort)
  | deletePublication
  | deleteHostTable
  | deleteHostVeth

/-- Without its pin a namespace is gone with everything in it. -/
def BundleKernel.unpinned (k : BundleKernel) : BundleKernel :=
  { k with links := fun link => link = .hostVeth && k.links link,
           up := fun link => link = .hostVeth && k.up link,
           forwarding := false, sandboxTable := none }

def KernelOp.apply : KernelOp → BundleKernel → BundleKernel
  | .createPin, k => { k with pin := true }
  | .unshareAndPin, k => k.unpinned
  | .removePin, k => { k with pin := false }
  | .openPin, k => k
  | .unmountPin, k => k.unpinned
  | .createVeth, k => { k with links := fun link => link = .tap && k.links link || link ≠ .tap }
  | .disableIpv6, k => k
  | .forwardingOff, k => { k with forwarding := false }
  | .forwardingOn _, k => { k with forwarding := true }
  | .createTap _ _, k => { k with links := fun link => link = .tap || k.links link }
  | .setAddress _ _, k => k
  | .setUp link, k => { k with up := fun l => l = link || k.up l }
  | .addRoute .., k => { k with routed := true }
  | .routeLocalnet, k => k
  | .applySandbox ruleset, k => { k with sandboxTable := some ruleset }
  | .applyHost ruleset, k => { k with hostTable := some ruleset }
  | .applyPublication published, k => { k with publicationTable := some published }
  | .deletePublication, k => { k with publicationTable := none }
  | .deleteHostTable, k => { k with hostTable := none }
  | .deleteHostVeth, k =>
    { k with links := fun link => link = .tap && k.links link, up := fun link => link = .tap && k.up link,
             routed := false }

/-- Whether the object a deletion names was there. -/
def KernelOp.found : KernelOp → BundleKernel → Bool
  | .deleteHostVeth, k => k.links .hostVeth
  | _, _ => true

/-- A question about the kernel objects of a bundle. -/
inductive KernelQuery where
  | exists_ (link : Link)
  | isUp (link : Link)
  | forwarding
  | sandboxTable
  | hostTable
  | publicationTable
deriving DecidableEq

def KernelQuery.ask : KernelQuery → BundleKernel → Bool
  | .exists_ link, k => k.links link
  | .isUp link, k => k.up link
  | .forwarding, k => k.forwarding
  | .sandboxTable, k => k.sandboxTable.isSome
  | .hostTable, k => k.hostTable.isSome
  | .publicationTable, k => k.publicationTable.isSome

/-! ## Requests and replies -/

inductive Request where
  | claim (instance_ : InstanceId) (operation : OperationId) (vsockCid : U32) (intent : NetworkIntent)
  | activate (slot : Slot) (receipt : ActivationReceipt)
  | release (slot : Slot)
  | reconcile
deriving DecidableEq

inductive Reply where
  | claimed (slot : Slot) (launch : List UInt8) (activation : ActivationChallenge)
  | activated
  | released (complete : Bool)
  | reconciled (consistent drifted orphaned unowned : ℕ)
  | failed (code : U16)
deriving DecidableEq

/-! ## The world -/

/-- What the results are about. -/
inductive Event where
  /-- The bundle was prepared by the process of this epoch, with these leases and this zone. -/
  | prepared (epoch : ℕ) (slot : Slot) (leases : LeasePair) (zone : ConntrackZone)
  /-- A challenge was made for this assignment. -/
  | issued (slot : Slot) (challenge : ActivationChallenge)
  /-- A release of the bundle completed. -/
  | settled (slot : Slot)
  /-- Forwarding was enabled, or tried to be, on behalf of a receipt. -/
  | forwarded (slot : Slot) (receipt : ActivationReceipt)
  /-- The TAP descriptor was sent to a peer, or tried to be. -/
  | handed (peer : U32) (slot : Slot)
  /-- A peer's request was answered. -/
  | replied (peer : U32) (request : Request) (reply : Reply)
deriving DecidableEq

structure World where
  files : AList (fun _ : FileName => List UInt8)
  kernel : ShortName → BundleKernel
  flushed : ConntrackZone → ℕ
  drawn : List BundleId
  epoch : ℕ
  trace : List Event

namespace World

/-- A host on which no broker ran. -/
def empty : World :=
  ⟨∅, fun _ => .absent, fun _ => 0, [], 0, []⟩

variable (w : World) (name : FileName)

def file : Option (List UInt8) :=
  w.files.lookup name

def setFile (bytes : List UInt8) : World :=
  { w with files := w.files.insert name bytes }

def removeFile : World :=
  { w with files := w.files.erase name }

def setKernel (short : ShortName) (k : BundleKernel) : World :=
  { w with kernel := Function.update w.kernel short k }

def log (event : Event) : World :=
  { w with trace := event :: w.trace }

/-- The next process finds the files and the kernel as the last one left them. -/
def revive : World :=
  { w with epoch := w.epoch + 1 }

end World

/-! ## Actions -/

inductive Act where
  -- the ledger directory
  | exists_ (file : FileName)
  | create (file : FileName)
  | write (file : FileName) (bytes : List UInt8)
  | sync (file : FileName)
  | link (source target : FileName)
  | remove (file : FileName)
  | syncDir
  | read (file : FileName)
  | readDir
  -- the kernel
  | pinExists (slot : Slot)
  | query (slot : Slot) (query : KernelQuery)
  | kernel (slot : Slot) (op : KernelOp)
  | flushZone (slot : Slot) (zone : ConntrackZone)
  | bindPort (publication : PortPublication)
  | listPins
  | listLinks
  | listTables
  -- the process
  | probePrivilege
  | openLedger
  | bindSocket
  | freshId
  | clock
  | challenge
  | sendTap (peer : U32) (slot : Slot)
  | reply (peer : U32) (request : Request) (reply : Reply)
  -- no actions of the source: they only extend the trace
  | prepared (slot : Slot) (leases : LeasePair) (zone : ConntrackZone)
  | issued (slot : Slot) (challenge : ActivationChallenge)
  | settled (slot : Slot)

abbrev Answer : Act → Type
  | .exists_ _ => Bool
  | .create _ => Except IoError Unit
  | .write _ _ => Except IoError Unit
  | .sync _ => Except IoError Unit
  | .link _ _ => Except IoError Unit
  | .remove _ => Except IoError Unit
  | .syncDir => Except IoError Unit
  | .read _ => Except Error (List UInt8)
  | .readDir => Except Error (List FileName)
  | .pinExists _ => Bool
  | .query _ _ => Except Error Bool
  | .kernel _ _ => Except Error Bool
  | .flushZone _ _ => Except Error Unit
  | .bindPort _ => Except Error U16
  | .listPins => Except Error (List Name)
  | .listLinks => Except Error (List Name)
  | .listTables => Except Error (List Name)
  | .probePrivilege => Except Error Unit
  | .openLedger => Except Error Unit
  | .bindSocket => Except Error Unit
  | .freshId => Except Error BundleId
  | .clock => Except Error U64
  | .challenge => Except Error ActivationChallenge
  | .sendTap _ _ => Except Error Unit
  | .reply _ _ _ => Except Error Unit
  | .prepared _ _ _ => Unit
  | .issued _ _ => Unit
  | .settled _ => Unit

/-- What the environment chooses: the errno or the failure of a step that fails, how much of a failed
write arrived, whether a failed kernel change was made, the names that are not the broker's. -/
abbrev Choice : Act → Type
  -- whether the stat fails, which the source reads as absent
  | .exists_ _ => Bool
  | .create _ => Option ℤ
  | .write _ _ => Option (ℤ × ℕ)
  | .sync _ => Option ℤ
  | .link _ _ => Option ℤ
  | .remove _ => Option ℤ
  | .syncDir => Option ℤ
  | .read _ => Option ℤ
  | .readDir => Option ℤ
  | .pinExists _ => Bool
  | .query _ _ => Option Error
  | .kernel _ _ => Option (Error × Bool)
  | .flushZone _ _ => Option (Error × Bool)
  | .bindPort _ => Except Error U16
  | .listPins => Except Error (List Name)
  | .listLinks => Except Error (List Name)
  | .listTables => Except Error (List Name)
  | .probePrivilege => Except Error Unit
  | .openLedger => Except Error Unit
  | .bindSocket => Except Error Unit
  | .freshId => Except Error BundleId
  | .clock => Except Error U64
  | .challenge => Except Error ActivationChallenge
  | .sendTap _ _ => Except Error Unit
  | .reply _ _ _ => Except Error Unit
  | .prepared _ _ _ => Unit
  | .issued _ _ => Unit
  | .settled _ => Unit

namespace World

variable (w : World)

/-- The names of a bundle's objects that exist, for every bundle ever drawn. -/
def names (of : BundleNames → BundleKernel → List Name) : List Name :=
  w.drawn.flatMap fun id => of (BundleNames.new id.shortHex) (w.kernel id.shortHex)

def pins : List Name :=
  w.drawn.flatMap fun id => if (w.kernel id.shortHex).pin then [id.shortHex] else []

def linkNames : List Name :=
  w.names fun names k => if k.links .hostVeth then [names.hostVeth] else []

def tableNames : List Name :=
  w.names fun names k => (if k.hostTable.isSome then [names.hostTable] else [])
    ++ if k.publicationTable.isSome then [names.publicationTable] else []

end World

/-- A change to the kernel objects of a bundle; one that fails was made or not. -/
def World.change (w : World) (slot : Slot) (op : KernelOp) : Option (Error × Bool) → World
  | some (_, false) => w
  | _ => w.setKernel slot.short (op.apply (w.kernel slot.short))

def World.logOp (w : World) (slot : Slot) : KernelOp → World
  | .forwardingOn receipt => w.log (.forwarded slot receipt)
  | _ => w

open World in
/-- The meaning of an action. -/
def exec : (a : Act) → Choice a → World → Option (Answer a × World)
  | .exists_ file, failed, w => some (!failed && (w.file file).isSome, w)
  | .create _, some errno, w => some (.error (.other errno), w)
  | .create file, none, w =>
    if (w.file file).isSome then some (.error .alreadyExists, w) else some (.ok (), w.setFile file [])
  | .write file bytes, some (errno, arrived), w =>
    some (.error (.other errno), w.setFile file (bytes.take arrived))
  | .write file bytes, none, w => some (.ok (), w.setFile file bytes)
  | .sync _, some errno, w => some (.error (.other errno), w)
  | .sync _, none, w => some (.ok (), w)
  | .link _ _, some errno, w => some (.error (.other errno), w)
  | .link source target, none, w => match w.file source with
    | none => some (.error (.other 2), w)
    | some bytes =>
      if (w.file target).isSome then some (.error .alreadyExists, w)
      else some (.ok (), w.setFile target bytes)
  | .remove _, some errno, w => some (.error (.other errno), w)
  | .remove file, none, w => some (.ok (), w.removeFile file)
  | .syncDir, some errno, w => some (.error (.other errno), w)
  | .syncDir, none, w => some (.ok (), w)
  | .read _, some errno, w => some (.error (.kernel .ledgerRead errno), w)
  | .read file, none, w => match w.file file with
    | none => some (.error (.kernel .ledgerRead 2), w)
    | some bytes => some (.ok (bytes.take (AssignmentRecord.MAX_RECORD + 1)), w)
  | .readDir, some errno, w => some (.error (.kernel .ledgerRead errno), w)
  | .readDir, none, w => some (.ok w.files.keys, w)
  | .pinExists slot, failed, w => some (!failed && (w.kernel slot.short).pin, w)
  | .query _ _, some error, w => some (.error error, w)
  | .query slot query, none, w => some (.ok (query.ask (w.kernel slot.short)), w)
  | .kernel slot op, choice, w =>
    -- the pin file is created exclusively
    if op matches .createPin ∧ (w.kernel slot.short).pin then
      some (.error (.invalidState "namespace pin exists"), w)
    else some (match choice with
      | none => .ok (op.found (w.kernel slot.short))
      | some (error, _) => .error error, (w.change slot op choice).logOp slot op)
  | .flushZone _ zone, choice, w =>
    let made := { w with flushed := Function.update w.flushed zone (w.flushed zone + 1) }
    match choice with
    | none => some (.ok (), made)
    | some (error, changed) => some (.error error, if changed then made else w)
  | .bindPort _, choice, w => some (choice, w)
  | .listPins, choice, w => some (choice.map (w.pins ++ ·), w)
  | .listLinks, choice, w => some (choice.map (w.linkNames ++ ·), w)
  | .listTables, choice, w => some (choice.map (w.tableNames ++ ·), w)
  | .probePrivilege, choice, w => some (choice, w)
  | .openLedger, choice, w => some (choice, w)
  | .bindSocket, choice, w => some (choice, w)
  | .freshId, .error error, w => some (.error error, w)
  | .freshId, .ok id, w => some (.ok id, { w with drawn := id :: w.drawn })
  | .clock, choice, w => some (choice, w)
  | .challenge, choice, w => some (choice, w)
  | .sendTap peer slot, choice, w => some (choice, w.log (.handed peer slot))
  | .reply peer request reply, choice, w => some (choice, w.log (.replied peer request reply))
  | .prepared slot leases zone, _, w => some ((), w.log (.prepared w.epoch slot leases zone))
  | .issued slot challenge, _, w => some ((), w.log (.issued slot challenge))
  | .settled slot, _, w => some ((), w.log (.settled slot))

end Soma.Netd
