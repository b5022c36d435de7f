/-
  A workbench: one builder, and numbered slots for what is made with it.

  Each command fills the next slot, with a node, a type, a decorrelator or a cache, or leaves
  it empty; a few also change an earlier slot. A command that fails fills its slot with nothing
  and changes nothing else. `Workbench.exec` carries out one command, `Workbench.run` a script
  of them.
-/
import RowExpr.Workbench.Command

namespace RowExpr

/-- What a slot holds. -/
inductive Slot where
  | empty
  | node (e : Expr)
  | type (type : DataType)
  | decorrelator (d : Decorrelator)
  | cache (cache : DigestCache)

/-- A builder, the session it works in, and the slots. -/
structure Workbench where
  builder : Builder
  session : Session := {}
  slots : List Slot := []

/-- Why a command was not carried out. -/
inductive Refusal where
  /-- A slot named by the command, or a child of its node, is not there. -/
  | noSuchSlot
  | error (cause : Error)

/-- What a command answers. -/
inductive Reply where
  | done
  /-- The node made, found or changed. -/
  | node (e : Expr)
  /-- The new node, and how many of the nodes in it were replaced. -/
  | replaced (e : Expr) (count : Nat)
  /-- There is no such node, or the operation is not for this variant of nodes. -/
  | absent

/-- A command under way. -/
abbrev BenchM := ExceptT Refusal (StateM Workbench)

namespace Workbench

/-- A workbench without slots. -/
def start (builder : Builder) : Workbench := { builder }

/-! ## Slots -/

def node? (bench : Workbench) (slot : SlotId) : Option Expr :=
  match bench.slots[slot]? with
  | some (.node e) => some e
  | _ => none

def type? (bench : Workbench) (slot : SlotId) : Option DataType :=
  match bench.slots[slot]? with
  | some (.type type) => some type
  | _ => none

def decorrelator? (bench : Workbench) (slot : SlotId) : Option Decorrelator :=
  match bench.slots[slot]? with
  | some (.decorrelator d) => some d
  | _ => none

def cache? (bench : Workbench) (slot : SlotId) : Option DigestCache :=
  match bench.slots[slot]? with
  | some (.cache cache) => some cache
  | _ => none

/-- The cache of a slot, or the builder's if none is named. -/
def cacheOrBuilders? (bench : Workbench) : Option SlotId → Option DigestCache
  | some slot => bench.cache? slot
  | none => some bench.builder.cache

/-- The first slot that holds this object. -/
def firstSlotOf? (bench : Workbench) (e : Expr) : Option SlotId :=
  bench.slots.findIdx? fun
    | .node held => held.same e
    | _ => false

def setSlot (slot : SlotId) (content : Slot) : BenchM Unit :=
  modify fun bench => { bench with slots := bench.slots.set slot content }

/-! ## Parts of commands -/

/-- What was looked for, or a refusal. -/
def need {α : Type} (find : Workbench → Option α) : BenchM α := do
  match find (← get) with
  | some a => return a
  | none => throw .noSuchSlot

def node (slot : SlotId) : BenchM Expr := need fun bench => bench.node? slot

def decorrelator (slot : SlotId) : BenchM Decorrelator :=
  need fun bench => bench.decorrelator? slot

def cache (slot : SlotId) : BenchM DigestCache := need fun bench => bench.cache? slot

/-- The cache of a slot, or the builder's if none is named. -/
def cacheOrBuilders (slot : Option SlotId) : BenchM DigestCache :=
  need fun bench => bench.cacheOrBuilders? slot

/-- Work within the session. -/
def inSession {α : Type} (x : SessionM α) : BenchM α :=
  modifyGet fun bench => let (a, session) := x.run bench.session; (a, { bench with session })

/-- Go on with the result of a check, or fail. -/
def check {α : Type} (result : Except Error α) : BenchM α :=
  match result with
  | .ok a => return a
  | .error cause => throw (.error cause)

/-- Fill the command's slot with a node, and answer it. -/
def produce (e : Expr) : BenchM (Slot × Reply) := return (.node e, .node e)

/-- Place a node that the operation gives, if it is for this variant of nodes. -/
def placeIfGiven (content : Option (Content Expr)) : BenchM (Slot × Reply) := do
  match content with
  | some content => produce (← inSession (Session.place content))
  | none => return (.empty, .absent)

/-- Intern a node into the cache of a slot. -/
def internInto (slot : SlotId) (cache : DigestCache) (e : Expr) : BenchM (Slot × Reply) := do
  let (known, cache) ← inSession (cache.intern e)
  setSlot slot (.cache cache)
  produce known

/-! ## Commands -/

/-- Carry out a command: what its slot is to hold, and what it answers. -/
def perform : Command → BenchM (Slot × Reply)
  | .keepType type => return (.type type, .done)
  | .make request => do
    let request ← request.mapM node
    let (result, builder) ← inSession ((← get).builder.make request)
    modify fun bench => { bench with builder }
    produce (← check result)
  | .place content => do
    let content ← content.mapM node
    produce (← inSession (Session.place content))
  | .placeAccess reference field => do
    let reference ← reference.mapM node
    let content ← check (Content.accessOf reference field)
    produce (← inSession (Session.place content))
  | .share slot => do produce (← node slot)
  | .copy slot => do
    let e ← node slot
    produce (← inSession (Session.copy e))
  | .drop slot => do
    let _ ← node slot
    setSlot slot .empty
    return (.empty, .done)
  | .operand slot position => do
    let e ← node slot
    produce (← need fun _ => e.children[position]?)
  | .withOperands slot operands => do
    let e ← node slot
    let operands ← operands.mapM node
    placeIfGiven (e.withOperands? operands)
  | .withReference slot reference => do
    let e ← node slot
    let reference ← node reference
    placeIfGiven (e.withReference? reference)
  | .replaceReference slot reference => do
    let e ← node slot
    let reference ← node reference
    let content ← check (e.replaceReference reference)
    let new ← inSession (Session.place content)
    setSlot slot (.node new)
    return (.empty, .node new)
  | .replaceLeaves slot rules => do
    let e ← node slot
    let rules ← rules.mapM fun (digest, slot) => do return (digest, ← node slot)
    let (new, count) ← inSession (e.replaceLeaves fun leaf => rules.lookup leaf.digest)
    return (.node new, .replaced new count)
  | .makeDecorrelator target replacement => do
    let replacement ← node replacement
    let d ← check (Decorrelator.ofReplacement target replacement)
    return (.decorrelator d, .done)
  | .apply slot target => do
    let d ← decorrelator slot
    let e ← node target
    let (new, d) ← inSession (d.apply e)
    setSlot slot (.decorrelator d)
    produce new
  | .decorrelate slot target => do
    let d ← decorrelator slot
    let e ← node target
    let (result, d) ← inSession (d.decorrelate e)
    setSlot slot (.decorrelator d)
    produce (← check result)
  | .makeCache capacity => return (.cache (.ofCapacity capacity), .done)
  | .copyCache slot => do return (.cache (← cacheOrBuilders slot), .done)
  | .clearCache slot => do
    setSlot slot (.cache (← cache slot).clear)
    return (.empty, .done)
  | .lookUp slot digest type => do
    match (← cacheOrBuilders slot).get? digest type with
    | some e => produce e
    | none => return (.empty, .absent)
  | .internCopy slot target => do
    let cache ← cache slot
    let e ← node target
    internInto slot cache (← inSession (Session.copy e))
  | .intern slot target => do
    let cache ← cache slot
    internInto slot cache (← node target)

/-- Carry out a command and fill the next slot. -/
def exec (command : Command) (bench : Workbench) : Except Refusal Reply × Workbench :=
  match (perform command).run bench with
  | (.ok (slot, reply), bench) =>
    (.ok reply, { bench with slots := bench.slots ++ [slot] })
  | (.error refusal, bench) =>
    (.error refusal, { bench with slots := bench.slots ++ [.empty] })

/-- Fill the next slot with nothing. -/
def skip (bench : Workbench) : Workbench :=
  { bench with slots := bench.slots ++ [.empty] }

/-- Carry out a script: its answers, and the workbench behind it. -/
def run : List Command → Workbench → List (Except Refusal Reply) × Workbench
  | [], bench => ([], bench)
  | command :: script, bench =>
    let (answer, bench) := exec command bench
    let (answers, bench) := run script bench
    (answer :: answers, bench)

end Workbench
end RowExpr
