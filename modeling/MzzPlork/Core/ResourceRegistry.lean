import MzzPlork.Base.OrdMap
import MzzPlork.Base.Kahn
import MzzPlork.Core.Bytes

/-!
# The Resource Registry

`runtime/src/ResourceState.*` and `runtime/src/ResourceRegistry.*`: the state
machine every resource goes through, and the dependency-ordered load.

`loadAll` runs in three phases over the records that are `cached`. The
pre-pass fails whatever declares a dependency that is missing or has already
failed, over and over until nothing changes. Kahn's algorithm then attempts to
load the remaining records, a record coming up once all its dependencies have
been attempted. What it never reaches is swept up as circular.

The two `while` loops carry a bound on their rounds. The pre-pass fails at
least one eligible record in every round but the last, and Kahn's algorithm
visits a node once, so neither bound is ever what stops the loop; see
`Theory.LoadAll`.

## Main definitions

* `ResourceState`, `isValidTransition`: The lifecycle and its table.
* `ResourceEntry`, `ResourceRecord`, `ResourceRegistry`: The data.
* `transitionTo`: The guarded change of one record's state.
* `validateAndMarkLoaded`, `loadOne`: One load attempt.
* `prePass`: The repeated pass that fails dependents.
* `buildGraph`: The tables Kahn's algorithm runs on.
* `loadAll`: The whole load.
* `start`, `stop`, `reload`: The lifecycle of one record after a load.
-/

namespace MzzPlork

/-- The lifecycle of a resource. -/
inductive ResourceState where
  | pending
  | downloading
  | verifying
  | cached
  | loading
  | loaded
  | started
  | stopped
  | failed
  deriving DecidableEq, Repr

/-- The transition table. `failed` is terminal. -/
def isValidTransition (source target : ResourceState) : Bool :=
  match source with
  | .pending => target = .downloading || target = .cached || target = .failed
  | .downloading => target = .verifying || target = .failed
  | .verifying => target = .cached || target = .failed
  | .cached => target = .loading || target = .failed
  | .loading => target = .loaded || target = .failed
  | .loaded => target = .started || target = .failed
  | .started => target = .stopped || target = .loading || target = .failed
  | .stopped => target = .started || target = .loading || target = .failed
  | .failed => false

/-- One entry of the server's resource manifest. -/
structure ResourceEntry where
  id : Bytes
  path : Bytes
  size : Int
  hash : Bytes
  version : Bytes
  dependencies : List Bytes
  deriving DecidableEq

/-- An entry with its lifecycle state and last error. -/
structure ResourceRecord where
  entry : ResourceEntry
  state : ResourceState
  error : Bytes
  deriving DecidableEq

/-- The registry: records by id, and the directory their paths are relative to. -/
structure ResourceRegistry where
  resourcesDir : Bytes
  records : OrdMap Bytes ResourceRecord

/-- What a load reports. -/
structure LoadSummary where
  loaded : Nat
  failed : Nat
  errors : List (Bytes × Bytes)

namespace ResourceRegistry

/-- The state of a record, if there is one. -/
def stateOf (r : ResourceRegistry) (id : Bytes) : Option ResourceState :=
  (r.records.find id).map ResourceRecord.state

/-- The entry of a record, if there is one. -/
def entryOf (r : ResourceRegistry) (id : Bytes) : Option ResourceEntry :=
  (r.records.find id).map ResourceRecord.entry

/-- `GetError`. -/
def getError (r : ResourceRegistry) (id : Bytes) : Bytes :=
  match r.records.find id with
  | some record => record.error
  | none => []

/-- `LoadManifest`: a later entry with the same id replaces an earlier one. -/
def loadManifest (r : ResourceRegistry) (entries : List ResourceEntry) : ResourceRegistry :=
  let pending := entries.map (fun entry => (entry.id, ResourceRecord.mk entry .pending []))
  { r with records := OrdMap.empty.insertAll pending }

/-- `TransitionTo`. An invalid transition leaves the registry unchanged. -/
def transitionTo (r : ResourceRegistry) (id : Bytes) (newState : ResourceState)
    (error : Bytes) : ResourceRegistry × Bool :=
  match r.records.find id with
  | none => (r, false)
  | some record =>
    if isValidTransition record.state newState then
      let records := r.records.modify id
        (fun record => { record with state := newState, error := error })
      ({ r with records := records }, true)
    else (r, false)

/-- `ValidateAndMarkLoaded`: from `loading`, check that the file is still
    there and has the right size. -/
def validateAndMarkLoaded (r : ResourceRegistry) (disk : ClientDisk) (id : Bytes)
    (entry : ResourceEntry) : ResourceRegistry × Bool :=
  let fullPath := joinPath r.resourcesDir entry.path
  if !fsExists disk fullPath then
    ((r.transitionTo id .failed (ascii "file missing during load: " ++ fullPath)).1, false)
  else
    match fsFileSize disk fullPath with
    | none =>
      ((r.transitionTo id .failed
        (ascii "file changed on disk since verification: " ++ fullPath)).1, false)
    | some size =>
      if entry.size > 0 ∧ size ≠ entry.size then
        ((r.transitionTo id .failed
          (ascii "file changed on disk since verification: " ++ fullPath)).1, false)
      else ((r.transitionTo id .loaded []).1, true)

/-- `LoadOne`. -/
def loadOne (r : ResourceRegistry) (disk : ClientDisk) (id : Bytes) : ResourceRegistry × Bool :=
  match r.records.find id with
  | none => (r, false)
  | some record =>
    let t := r.transitionTo id .loading []
    -- Refused unless the table has a way from the record's state to `loading`.
    if t.2 then t.1.validateAndMarkLoaded disk id record.entry else (t.1, false)

/-- The first declared dependency that is missing or failed, as the message it
    fails its dependent with. -/
def badDependency (r : ResourceRegistry) : List Bytes → Option Bytes
  | [] => none
  | dep :: deps =>
    match r.records.find dep with
    | none => some (ascii "missing dependency: " ++ dep)
    | some record =>
      if record.state = .failed then some (ascii "dependency failed: " ++ dep)
      else r.badDependency deps

/-- Registry and summary, the two things every phase works on. -/
abbrev Load := ResourceRegistry × LoadSummary

/-- Count a failure, with the error now stored in the record. -/
def recordFailure (l : Load) (id : Bytes) : Load :=
  (l.1, { l.2 with failed := l.2.failed + 1, errors := l.2.errors ++ [(id, l.1.getError id)] })

/-- One record of the pre-pass. The flag says whether the pass changed anything. -/
def prePassOne (acc : Load × Bool) (id : Bytes) : Load × Bool :=
  match acc.1.1.records.find id with
  | none => acc
  | some record =>
    -- Failed in an earlier round.
    if record.state ≠ .cached then acc
    else
      match acc.1.1.badDependency record.entry.dependencies with
      | none => acc
      | some error =>
        -- The first bad dependency is the one reported.
        (recordFailure ((acc.1.1.transitionTo id .failed error).1, acc.1.2) id, true)

/-- `while (changed)`: passes over the eligible records until one changes
    nothing, at most `fuel` of them. -/
def prePass (eligible : List Bytes) : Nat → Load → Load
  | 0, l => l
  | fuel + 1, l =>
    let pass := eligible.foldl prePassOne (l, false)
    if pass.2 then prePass eligible fuel pass.1 else pass.1

/-- The tables of Kahn's algorithm: `inDegree` and `dependents`. -/
structure LoadGraph where
  inDegree : OrdMap Bytes Int
  dependents : Bytes → List Bytes

/-- Whether a dependency takes part in the sort. -/
def participates (r : ResourceRegistry) (eligible : List Bytes) (dep : Bytes) : Bool :=
  eligible.contains dep && r.stateOf dep = some .cached

/-- One dependency of one record: count it, and list the record under it. -/
def addEdge (r : ResourceRegistry) (eligible : List Bytes) (id : Bytes)
    (acc : Int × (Bytes → List Bytes)) (dep : Bytes) : Int × (Bytes → List Bytes) :=
  if r.participates eligible dep then
    (acc.1 + 1, Function.update acc.2 dep (acc.2 dep ++ [id]))
  else acc

/-- One record of the graph. -/
def addNode (r : ResourceRegistry) (eligible : List Bytes) (g : LoadGraph) (id : Bytes) :
    LoadGraph :=
  match r.records.find id with
  | none => g
  | some record =>
    if record.state ≠ .cached then g
    else
      -- A dependency declared twice counts twice, and is listed twice.
      let edges := record.entry.dependencies.foldl (r.addEdge eligible id) (0, g.dependents)
      { inDegree := g.inDegree.insert id edges.1, dependents := edges.2 }

/-- The graph over the still-cached records. -/
def buildGraph (r : ResourceRegistry) (eligible : List Bytes) : LoadGraph :=
  eligible.foldl (r.addNode eligible) ⟨OrdMap.empty, fun _ => []⟩

/-- The counter of a node. -/
def LoadGraph.degree (g : LoadGraph) (id : Bytes) : Int := (g.inDegree.find id).getD 0

/-- What happens at each visit: one load attempt, counted. -/
def attempt (disk : ClientDisk) (id : Bytes) (l : Load) : Load :=
  let one := l.1.loadOne disk id
  if one.2 then (one.1, { l.2 with loaded := l.2.loaded + 1 })
  else recordFailure (one.1, l.2) id

/-- Kahn's loop over a graph: the nodes attempted, and the registry after. -/
def loadInOrder (g : LoadGraph) (disk : ClientDisk) (l : Load) : Kahn.State Bytes × Load :=
  Kahn.loop g.dependents (attempt disk) g.inDegree.keys.length
    ⟨g.inDegree.keys.filter (fun id => g.degree id = 0), g.degree, []⟩ l

/-- One node of the final sweep. -/
def sweepOne (processed : List Bytes) (l : Load) (id : Bytes) : Load :=
  if processed.contains id then l
  else
    -- The message is counted whether or not the transition succeeds.
    ((l.1.transitionTo id .failed (ascii "circular dependency")).1,
      { l.2 with failed := l.2.failed + 1,
                 errors := l.2.errors ++ [(id, ascii "circular dependency")] })

/-- The records a load starts from. -/
def eligible (r : ResourceRegistry) : List Bytes :=
  r.records.keys.filter (fun id => r.stateOf id = some .cached)

/-- `LoadAll`. -/
def loadAll (r : ResourceRegistry) (disk : ClientDisk) : Load :=
  let elig := r.eligible
  let pre := prePass elig (elig.length + 1) (r, ⟨0, 0, []⟩)
  let graph := pre.1.buildGraph elig
  let sorted := loadInOrder graph disk pre
  graph.inDegree.keys.foldl (sweepOne sorted.1.done) sorted.2

/-- A resource's name in a message. -/
def quoted (id : Bytes) : Bytes := ascii "\"" ++ id ++ ascii "\""

/-- `Start`. The second component is the error of a call that is refused. -/
def start (r : ResourceRegistry) (id : Bytes) : ResourceRegistry × Option Bytes :=
  let t := r.transitionTo id .started []
  (t.1, if t.2 then none
    else some (ascii "cannot start resource " ++ quoted id ++ ascii " from its current state"))

/-- `Stop`. -/
def stop (r : ResourceRegistry) (id : Bytes) : ResourceRegistry × Option Bytes :=
  let t := r.transitionTo id .stopped []
  (t.1, if t.2 then none
    else some (ascii "cannot stop resource " ++ quoted id ++ ascii " from its current state"))

/-- `Reload`: the check of a load, from `started` or `stopped`. -/
def reload (r : ResourceRegistry) (disk : ClientDisk) (id : Bytes) :
    ResourceRegistry × Option Bytes :=
  match r.records.find id with
  | none => (r, some (ascii "unknown resource " ++ quoted id))
  | some record =>
    if record.state ≠ .started ∧ record.state ≠ .stopped then
      (r, some (ascii "cannot reload resource " ++ quoted id ++ ascii " from its current state"))
    else
      let t := r.transitionTo id .loading []
      if t.2 then
        let v := t.1.validateAndMarkLoaded disk id record.entry
        -- The record is read again after the check, for the error stored in it.
        if !v.2 then (v.1, some (v.1.getError id))
        else if record.state = .started then ((v.1.transitionTo id .started []).1, none)
        else (v.1, none)
      else (t.1, some (ascii "reload transition failed for " ++ quoted id))

end ResourceRegistry

end MzzPlork
