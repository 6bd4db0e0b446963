import LangGraph.Lib.Search
import LangGraph.Graph.CompiledStateGraph

/-!
# Building and validating a graph

`state_graph.cpp`: the methods a graph is built with and `validate`, which accepts a built graph
exactly if it is `Valid`.
-/

namespace LangGraph

open OrderedMap Relation Search CompiledStateGraph ExceptList

namespace StateGraph

/-! ## 1. Building -/

def validateTargetNodeId (id : Bytes) : Result Unit := do
  require (id ≠ []) (.invalidArgument (lit "target node id cannot be empty"))
  require (id ≠ START) (.invalidArgument (lit "edge target cannot be START"))

def validateSourceNodeId (source : Bytes) : Result Unit :=
  if source = START then .ok () else validateUserNodeId source

def addNode (graph : StateGraph) (id : Bytes) (handler : Option (State → Runtime → HandlerOutcome))
    (options : NodeOptions) : Result StateGraph := do
  validateUserNodeId id
  match handler with
  | none => .error (.invalidArgument (lit "node handler cannot be empty"))
  | some handler =>
    require (!contains id graph.nodes) (.alreadyExists (lit "node already exists: " ++ id))
    return { graph with nodes := set id { handler, options } graph.nodes }

def setNodeOptions (graph : StateGraph) (id : Bytes) (options : NodeOptions) :
    Result StateGraph := do
  validateUserNodeId id
  match find id graph.nodes with
  | none => .error (.notFound (lit "node not found: " ++ id))
  | some spec => return { graph with nodes := set id { spec with options } graph.nodes }

def addEdge (graph : StateGraph) (source target : Bytes) : Result StateGraph := do
  require (source ≠ []) (.invalidArgument (lit "edge source cannot be empty"))
  require (source ≠ END) (.invalidArgument (lit "edge source cannot be END"))
  validateSourceNodeId source
  validateTargetNodeId target
  let targets := targetsOf graph.edges source
  require (target ∉ targets) (.alreadyExists (lit "edge already exists"))
  return { graph with edges := set source (targets ++ [target]) graph.edges }

def addEdges (graph : StateGraph) (sources : List Bytes) (target : Bytes) : Result StateGraph := do
  require (sources ≠ []) (.invalidArgument (lit "edge sources cannot be empty"))
  sources.foldlM (fun candidate source => candidate.addEdge source target) graph

def linkFrom (previous : Option Bytes) (candidate : StateGraph) (id : Bytes) : Result StateGraph :=
  match previous with
  | none => .ok candidate
  | some previous => candidate.addEdge previous id

/-- Adds the nodes one after another, each with an edge from the one before it. -/
def addChain (options : NodeOptions) :
    StateGraph → Option Bytes → List (Bytes × Option (State → Runtime → HandlerOutcome)) →
      Result StateGraph
  | candidate, _, [] => return candidate
  | candidate, previous, (id, handler) :: nodes => do
    let candidate ← candidate.addNode id handler options
    let candidate ← linkFrom previous candidate id
    addChain options candidate (some id) nodes

def addSequence (graph : StateGraph) (options : NodeOptions)
    (nodes : List (Bytes × Option (State → Runtime → HandlerOutcome))) : Result StateGraph := do
  require (nodes ≠ []) (.invalidArgument (lit "sequence requires at least one node"))
  addChain options graph none nodes

def destinationSet (destinations : List Bytes) : Result (List Bytes) := do
  destinations.forM validateTargetNodeId
  return (merge [] (destinations.map fun destination => (destination, ()))).map Prod.fst

def registerRoute (graph : StateGraph) (source : Bytes) (router : Option Router)
    (destinations : List Bytes) : Result StateGraph := do
  require (source ≠ []) (.invalidArgument (lit "router source cannot be empty"))
  validateSourceNodeId source
  match router with
  | none => .error (.invalidArgument (lit "router handler cannot be empty"))
  | some router =>
    require (!contains source graph.routers)
      (.alreadyExists (lit "conditional edges already exist: " ++ source))
    let kept ← destinationSet destinations
    return { graph with
      routers := set source router graph.routers
      routerDestinations := set source kept graph.routerDestinations }

def addCommandRoute (graph : StateGraph) (source : Bytes) (destinations : List Bytes) :
    Result StateGraph := do
  validateUserNodeId source
  require (!contains source graph.commandDestinations)
    (.alreadyExists (lit "command destinations already exist: " ++ source))
  let kept ← destinationSet destinations
  return { graph with commandDestinations := set source kept graph.commandDestinations }

/-! ## 2. Validating -/

section Validate

variable (graph : StateGraph)

abbrev Adjacency := List (Bytes × List Bytes)

def openRouteTargets : List Bytes := graph.nodes.map Prod.fst ++ [END]

def requireTarget (kind target : Bytes) : Result Unit :=
  require (graph.hasNodeOrEnd target) (.failedPrecondition (kind ++ lit " target is unknown: " ++ target))

def push (source target : Bytes) (adjacency : Adjacency) :
    Adjacency :=
  set source (targetsOf adjacency source ++ [target]) adjacency

def emptyAdjacency : Adjacency :=
  merge [] ((START, []) :: (END, []) :: graph.nodes.map fun node => (node.1, []))

def addEdgeTargets (adjacency : Adjacency) (entry : Bytes × List Bytes) :
    Result (Adjacency) := do
  let source := entry.1
  require (source = START || contains source graph.nodes)
    (.failedPrecondition (lit "edge source is unknown: " ++ source))
  require (!contains source graph.routers) (.failedPrecondition
    (lit "node cannot have both normal and conditional edges: " ++ source))
  require (!contains source graph.commandDestinations) (.failedPrecondition
    (lit "node cannot have both normal and command routing edges: " ++ source))
  entry.2.forM (graph.requireTarget (lit "edge"))
  return set source entry.2 adjacency

/-- The targets of a router or a command route without destinations are open. -/
def addDestinations (kind : Bytes) (adjacency : Adjacency) (source : Bytes)
    (destinations : List Bytes) : Result (Adjacency) :=
  if destinations = [] then return set source graph.openRouteTargets adjacency
  else destinations.foldlM (fun adjacency target => do
    graph.requireTarget kind target
    return push source target adjacency) adjacency

def addRouterTargets (adjacency : Adjacency) (entry : Bytes × Router) :
    Result (Adjacency) := do
  let source := entry.1
  require (source = START || contains source graph.nodes)
    (.failedPrecondition (lit "router source is unknown: " ++ source))
  require (!contains source graph.commandDestinations) (.failedPrecondition
    (lit "node cannot have both conditional and command routing edges: " ++ source))
  graph.addDestinations (lit "router") adjacency source (targetsOf graph.routerDestinations source)

def addCommandTargets (adjacency : Adjacency) (entry : Bytes × List Bytes) :
    Result (Adjacency) := do
  let source := entry.1
  require (contains source graph.nodes)
    (.failedPrecondition (lit "command source is unknown: " ++ source))
  graph.addDestinations (lit "command") adjacency source entry.2

def addDefaultTarget (adjacency : Adjacency) (node : Bytes × NodeSpec) :
    Adjacency :=
  if contains node.1 graph.edges || contains node.1 graph.routers ||
      contains node.1 graph.commandDestinations then adjacency
  else push node.1 END adjacency

def reverseAdjacency (adjacency : Adjacency) : Adjacency :=
  adjacency.foldl (fun reversed entry =>
    entry.2.foldl (fun reversed target => push target entry.1 reversed)
      (set entry.1 (targetsOf reversed entry.1) reversed)) []

def validate : Result Unit := do
  require (targetsOf graph.edges START ≠ [] || contains START graph.routers)
    (.failedPrecondition (lit "graph must have an edge from START"))
  let adjacency ← graph.edges.foldlM graph.addEdgeTargets graph.emptyAdjacency
  let adjacency ← graph.routers.foldlM graph.addRouterTargets adjacency
  let adjacency ← graph.commandDestinations.foldlM graph.addCommandTargets adjacency
  let adjacency := graph.nodes.foldl graph.addDefaultTarget adjacency
  let reachable := search adjacency START
  require (contains END reachable) (.failedPrecondition (lit "END is not reachable from START"))
  graph.nodes.forM fun node => require (contains node.1 reachable)
    (.failedPrecondition (lit "node is not reachable from START: " ++ node.1))
  let canReachEnd := search (reverseAdjacency adjacency) END
  reachable.forM fun node => require (node.1 = END || contains node.1 canReachEnd)
    (.failedPrecondition (lit "reachable node cannot reach END: " ++ node.1))

end Validate

/-! ## 3. What is accepted -/

section Valid

variable (graph : StateGraph)

/-- `w` is declared as a target of an edge, router or command route of `v`. -/
def Declared (v w : Bytes) : Prop :=
  w ∈ targetsOf graph.edges v ∨ w ∈ targetsOf graph.routerDestinations v ∨
    w ∈ targetsOf graph.commandDestinations v

/-- The router or the command route of `v` names no destinations. -/
def Open (v : Bytes) : Prop :=
  contains v graph.routers ∧ targetsOf graph.routerDestinations v = [] ∨
    contains v graph.commandDestinations ∧ targetsOf graph.commandDestinations v = []

def Unrouted (v : Bytes) : Prop :=
  contains v graph.nodes ∧ ¬ contains v graph.edges ∧ ¬ contains v graph.routers ∧
    ¬ contains v graph.commandDestinations

def Successor (v w : Bytes) : Prop :=
  graph.Declared v w ∨ graph.Open v ∧ graph.hasNodeOrEnd w ∨ graph.Unrouted v ∧ w = END

structure OneKind : Prop where
  edges : ∀ v, contains v graph.edges →
    ¬ contains v graph.routers ∧ ¬ contains v graph.commandDestinations
  routers : ∀ v, contains v graph.routers → ¬ contains v graph.commandDestinations

/-- A graph that can be run: it starts, its sources and targets exist, a source has one kind of
    routing, and every node lies on a path from the start to the end. -/
structure Valid : Prop where
  starts : contains START graph.edges ∨ contains START graph.routers
  edgeSource : ∀ v, contains v graph.edges → v = START ∨ contains v graph.nodes
  routerSource : ∀ v, contains v graph.routers → v = START ∨ contains v graph.nodes
  commandSource : ∀ v, contains v graph.commandDestinations → contains v graph.nodes
  oneKind : graph.OneKind
  target : ∀ v w, graph.Declared v w → graph.hasNodeOrEnd w
  reached : ∀ v, graph.hasNodeOrEnd v → ReflTransGen graph.Successor START v
  finishes : ∀ v, ReflTransGen graph.Successor START v → ReflTransGen graph.Successor v END

structure Formed : Prop where
  nodes : Increasing graph.nodes
  edges : Increasing graph.edges
  routers : Increasing graph.routers
  commands : Increasing graph.commandDestinations
  edgeTargets : ∀ v, contains v graph.edges → targetsOf graph.edges v ≠ []
  destinations : ∀ v, contains v graph.routerDestinations = contains v graph.routers

end Valid

inductive Built : StateGraph → Prop where
  | new (schemas : StateSchemaOptions) : Built { schemas }
  | setSchemas {graph} (h : Built graph) (schemas : StateSchemaOptions) : Built { graph with schemas }
  | addNode {graph graph' id handler options} (h : Built graph)
    (hadd : graph.addNode id handler options = .ok graph') : Built graph'
  | setNodeOptions {graph graph' id options} (h : Built graph)
    (hset : graph.setNodeOptions id options = .ok graph') : Built graph'
  | addEdge {graph graph' source target} (h : Built graph)
    (hadd : graph.addEdge source target = .ok graph') : Built graph'
  | addEdges {graph graph' sources target} (h : Built graph)
    (hadd : graph.addEdges sources target = .ok graph') : Built graph'
  | addSequence {graph graph' options nodes} (h : Built graph)
    (hadd : graph.addSequence options nodes = .ok graph') : Built graph'
  | registerRoute {graph graph' source router destinations} (h : Built graph)
    (hadd : graph.registerRoute source router destinations = .ok graph') : Built graph'
  | addCommandRoute {graph graph' source destinations} (h : Built graph)
    (hadd : graph.addCommandRoute source destinations = .ok graph') : Built graph'

/-! ## 4. Built graphs are formed -/

section Formed

variable {graph graph' : StateGraph}

theorem Formed.addNode (h : graph.Formed) {id : Bytes}
    {handler : Option (State → Runtime → HandlerOutcome)} {options : NodeOptions}
    (hadd : graph.addNode id handler options = .ok graph') : graph'.Formed := by
  obtain ⟨-, -, hadd⟩ := of_bind hadd
  cases handler with
  | none => cases hadd
  | some =>
    obtain ⟨-, hadd⟩ := of_require hadd
    cases hadd; exact { h with nodes := h.nodes.set id _ }

theorem Formed.addEdge (h : graph.Formed) {source target : Bytes}
    (hadd : graph.addEdge source target = .ok graph') : graph'.Formed := by
  simp only [StateGraph.addEdge, require_bind_eq_ok] at hadd
  obtain ⟨-, -, hadd⟩ := hadd
  obtain ⟨-, -, hadd⟩ := of_bind hadd
  obtain ⟨-, -, hadd⟩ := of_bind hadd
  obtain ⟨-, hadd⟩ := of_require hadd
  cases hadd
  refine { h with edges := h.edges.set source _, edgeTargets := fun v hv => ?_ }
  rw [targetsOf_set]
  split_ifs with hkey
  · exact List.concat_ne_nil _ _
  · exact h.edgeTargets v ((contains_set.mp hv).resolve_left (Ne.symm hkey))

theorem Formed.addChain (h : graph.Formed) {options : NodeOptions} {previous : Option Bytes}
    {nodes : List (Bytes × Option (State → Runtime → HandlerOutcome))}
    (hadd : addChain options graph previous nodes = .ok graph') : graph'.Formed := by
  induction nodes generalizing graph previous with
  | nil => cases hadd; exact h
  | cons node nodes ih =>
    obtain ⟨candidate, hnode, hadd⟩ := of_bind hadd
    obtain ⟨linked, hlink, hadd⟩ := of_bind hadd
    refine ih ?_ hadd
    cases previous with
    | none => cases hlink; exact h.addNode hnode
    | some => exact (h.addNode hnode).addEdge hlink

theorem Built.formed (h : graph.Built) : graph.Formed := by
  induction h with
  | new =>
    exact { nodes := .nil, edges := .nil, routers := .nil, commands := .nil,
            edgeTargets := fun _ hv => (nomatch hv), destinations := fun _ => rfl }
  | setSchemas h schemas ih => exact { ih with }
  | addNode h hadd ih => exact ih.addNode hadd
  | @setNodeOptions graph graph' id options h hset ih =>
    obtain ⟨-, -, hset⟩ := of_bind hset
    cases hfind : find id graph.nodes with
    | none => rw [hfind] at hset; cases hset
    | some =>
      rw [hfind] at hset
      cases hset; exact { ih with nodes := ih.nodes.set id _ }
  | addEdge h hadd ih => exact ih.addEdge hadd
  | addEdges h hadd ih =>
    obtain ⟨-, hadd⟩ := of_require hadd
    exact foldlM_induction (fun _ _ _ hb hc => Formed.addEdge hb hc) ih hadd
  | addSequence h hadd ih =>
    obtain ⟨-, hadd⟩ := of_require hadd
    exact ih.addChain hadd
  | @registerRoute graph graph' source router destinations h hadd ih =>
    obtain ⟨-, hadd⟩ := of_require hadd
    obtain ⟨-, -, hadd⟩ := of_bind hadd
    cases router with
    | none => cases hadd
    | some =>
      obtain ⟨-, hadd⟩ := of_require hadd
      obtain ⟨kept, -, hadd⟩ := of_bind hadd
      cases hadd
      refine { ih with routers := ih.routers.set source _, destinations := fun v => ?_ }
      rw [Bool.eq_iff_iff, contains_set, contains_set, ih.destinations]
  | @addCommandRoute graph graph' source destinations h hadd ih =>
    obtain ⟨-, -, hadd⟩ := of_bind hadd
    obtain ⟨-, hadd⟩ := of_require hadd
    obtain ⟨kept, -, hadd⟩ := of_bind hadd
    cases hadd; exact { ih with commands := ih.commands.set source _ }

end Formed

/-! ## 5. The adjacency map -/

section Adjacency

variable {graph : StateGraph}

theorem targetsOf_push (source target : Bytes) (m : Adjacency) (v : Bytes) :
    targetsOf (push source target m) v =
      if source = v then targetsOf m v ++ [target] else targetsOf m v := by
  rw [push, targetsOf_set]
  split_ifs with h
  · rw [h]
  · rfl

/-- What `addDestinations` does once its targets are known. -/
def withDestinations (graph : StateGraph) (m : Adjacency) (source : Bytes)
    (destinations : List Bytes) : Adjacency :=
  if destinations = [] then set source graph.openRouteTargets m
  else destinations.foldl (fun m target => push source target m) m

def routed (graph : StateGraph) (destinations before : List Bytes) : List Bytes :=
  if destinations = [] then graph.openRouteTargets else before ++ destinations

theorem targetsOf_withDestinations (m : Adjacency) (source : Bytes)
    (destinations : List Bytes) (v : Bytes) :
    targetsOf (graph.withDestinations m source destinations) v =
      if source = v then graph.routed destinations (targetsOf m v) else targetsOf m v := by
  have hpushes : ∀ (ds : List Bytes) (m : Adjacency),
      targetsOf (ds.foldl (fun m target => push source target m) m) v =
        if source = v then targetsOf m v ++ ds else targetsOf m v := by
    intro ds
    induction ds with
    | nil => simp
    | cons d ds ih =>
      intro m
      rw [List.foldl_cons, ih, targetsOf_push]
      split_ifs
      · rw [List.append_assoc, List.singleton_append]
      · rfl
  unfold withDestinations routed
  split_ifs with hnil hkey hkey
  · rw [targetsOf_set, if_pos hkey]
  · rw [targetsOf_set, if_neg hkey]
  · rw [hpushes, if_pos hkey]
  · rw [hpushes, if_neg hkey]

theorem addDestinations_eq_ok {kind source : Bytes} {destinations : List Bytes}
    {m m' : Adjacency} :
    graph.addDestinations kind m source destinations = .ok m' ↔
      (∀ w ∈ destinations, graph.hasNodeOrEnd w) ∧
        graph.withDestinations m source destinations = m' := by
  unfold addDestinations withDestinations
  split_ifs with hnil
  · simp [hnil, pure, Except.pure]
  · exact foldlM_eq_ok_iff fun m target m' => by
      rw [requireTarget, require_bind_eq_ok]; simp [pure, Except.pure]

/-- The adjacency map of a graph that passes the checks of the loops. -/
def adjacency (graph : StateGraph) : Adjacency :=
  graph.nodes.foldl graph.addDefaultTarget <|
    graph.commandDestinations.foldl (fun m entry => graph.withDestinations m entry.1 entry.2) <|
      graph.routers.foldl (fun m entry =>
        graph.withDestinations m entry.1 (targetsOf graph.routerDestinations entry.1)) <|
        graph.edges.foldl (fun m entry => set entry.1 entry.2 m) graph.emptyAdjacency

theorem targetsOf_emptyAdjacency (v : Bytes) : targetsOf graph.emptyAdjacency v = [] := by
  have hmem : ∀ entry ∈ graph.emptyAdjacency, entry.2 = [] := by
    intro entry hentry
    rcases mem_merge hentry with h | h
    · cases h
    · simp only [List.mem_cons, List.mem_map] at h
      rcases h with rfl | rfl | ⟨node, -, rfl⟩ <;> rfl
  unfold targetsOf
  cases hfind : find v graph.emptyAdjacency with
  | none => rfl
  | some => exact hmem _ (mem_of_find_eq_some hfind)

theorem Formed.targetsOf_adjacency (h : graph.Formed) (v : Bytes) :
    targetsOf graph.adjacency v = let edges := targetsOf graph.edges v
      let routers := if contains v graph.routers then
        graph.routed (targetsOf graph.routerDestinations v) edges else edges
      let commands := if contains v graph.commandDestinations then
        graph.routed (targetsOf graph.commandDestinations v) routers else routers
      if contains v graph.nodes then
        if contains v graph.edges || contains v graph.routers ||
          contains v graph.commandDestinations then commands else commands ++ [END]
      else commands := by
  have hedges : targetsOf (graph.edges.foldl (fun m entry => set entry.1 entry.2 m)
      graph.emptyAdjacency) v = targetsOf graph.edges v := by
    rw [targetsOf_foldl (g := fun v _ => targetsOf graph.edges v) h.edges.nodup,
      targetsOf_emptyAdjacency]
    · split_ifs with hcontains
      · rfl
      · exact (targetsOf_of_not_contains hcontains).symm
    · intro m entry hentry v
      rw [targetsOf_set, ← targetsOf_of_mem h.edges hentry]
      split_ifs with hkey
      · rw [hkey]
      · rfl
  -- the four loops that build the adjacency, the last one outermost
  rw [adjacency, targetsOf_foldl
    (g := fun v before => if contains v graph.edges || contains v graph.routers ||
      contains v graph.commandDestinations then before else before ++ [END]) h.nodes.nodup,
    targetsOf_foldl (g := fun v => graph.routed (targetsOf graph.commandDestinations v))
      h.commands.nodup,
    targetsOf_foldl (g := fun v => graph.routed (targetsOf graph.routerDestinations v))
      h.routers.nodup, hedges]
  · intro m entry _ v
    rw [targetsOf_withDestinations]
    split_ifs with hkey
    · rw [hkey]
    · rfl
  · intro m entry hentry v
    rw [targetsOf_withDestinations, ← targetsOf_of_mem h.commands hentry]
    split_ifs with hkey
    · rw [hkey]
    · rfl
  · intro m entry _ v
    unfold addDefaultTarget
    by_cases hkey : entry.1 = v
    · rw [if_pos hkey, hkey]
      split_ifs
      · rfl
      · rw [targetsOf_push, if_pos rfl]
    · rw [if_neg hkey]
      split_ifs
      · rfl
      · rw [targetsOf_push, if_neg hkey]

theorem Formed.mem_adjacency_iff (h : graph.Formed) (hkind : graph.OneKind) (v w : Bytes) :
    w ∈ targetsOf graph.adjacency v ↔ graph.Successor v w := by
  have hopen : w ∈ graph.openRouteTargets ↔ graph.hasNodeOrEnd w := by
    simp [openRouteTargets, hasNodeOrEnd, contains_iff, or_comm]
  have hnone {m : Adjacency} (hm : ¬ contains v m) := targetsOf_of_not_contains hm
  rw [h.targetsOf_adjacency, Successor, Declared, Open, Unrouted]
  by_cases he : contains v graph.edges
  · obtain ⟨hr, hc⟩ := hkind.edges v he
    simp [he, hr, hc, hnone hc, hnone (h.destinations v ▸ hr)]
  · by_cases hr : contains v graph.routers
    · have hc := hkind.routers v hr
      by_cases hd : targetsOf graph.routerDestinations v = [] <;>
        simp [hr, hc, hnone hc, hnone he, hd, routed, hopen]
    · have hd := hnone (h.destinations v ▸ hr)
      by_cases hc : contains v graph.commandDestinations
      · by_cases hd' : targetsOf graph.commandDestinations v = [] <;>
          simp [hr, hc, hnone he, hd, hd', routed, hopen]
      · by_cases hn : contains v graph.nodes <;> simp [he, hr, hc, hn, hnone hc, hd]

theorem increasing_adjacency (graph : StateGraph) : Increasing graph.adjacency := by
  have hroute : ∀ m source destinations, Increasing m →
      Increasing (graph.withDestinations m source destinations) := by
    intro m source destinations hm
    unfold withDestinations
    split_ifs
    · exact hm.set _ _
    · exact List.foldlRecOn destinations _ hm fun m hm target _ => hm.set _ _
  refine List.foldlRecOn _ _ ?_ fun m hm node _ => ?_
  · refine List.foldlRecOn _ _ ?_ fun m hm entry _ => hroute m _ _ hm
    refine List.foldlRecOn _ _ ?_ fun m hm entry _ => hroute m _ _ hm
    refine List.foldlRecOn _ _ ?_ fun m hm entry _ => hm.set _ _
    exact Increasing.merge .nil _
  · unfold addDefaultTarget
    split_ifs
    · exact hm
    · exact hm.set _ _

theorem mem_reverseAdjacency_iff {m : Adjacency} (hm : Increasing m)
    (u v : Bytes) : u ∈ targetsOf (reverseAdjacency m) v ↔ v ∈ targetsOf m u := by
  have hpushes : ∀ (node : Bytes) (targets : List Bytes) (r : Adjacency),
      u ∈ targetsOf (targets.foldl (fun r target => push target node r) r) v ↔
        u ∈ targetsOf r v ∨ u = node ∧ v ∈ targets := by
    intro node targets
    induction targets with
    | nil => simp
    | cons target targets ih =>
      intro r
      rw [List.foldl_cons, ih, targetsOf_push]
      by_cases htarget : target = v
      · simp [htarget]
        tauto
      · simp [htarget, Ne.symm htarget]
  have hloop : ∀ (m r : Adjacency), u ∈ targetsOf (m.foldl (fun reversed entry =>
        entry.2.foldl (fun reversed target => push target entry.1 reversed)
          (set entry.1 (targetsOf reversed entry.1) reversed)) r) v ↔
        u ∈ targetsOf r v ∨ ∃ entry ∈ m, u = entry.1 ∧ v ∈ entry.2 := by
    intro m
    induction m with
    | nil => simp
    | cons entry m ih =>
      intro r
      have hsame : targetsOf (set entry.1 (targetsOf r entry.1) r) v = targetsOf r v := by
        rw [targetsOf_set]
        split_ifs with hkey
        · rw [hkey]
        · rfl
      rw [List.foldl_cons, ih, hpushes, hsame, or_assoc]
      simp only [List.mem_cons, exists_eq_or_imp]
  rw [reverseAdjacency, hloop]
  constructor
  · rintro (h | ⟨entry, hentry, rfl, hv⟩)
    · cases h
    · rwa [targetsOf_of_mem hm hentry]
  · intro hv
    obtain ⟨targets, hmem, hv⟩ := exists_mem_of_mem_targetsOf hv
    exact .inr ⟨(u, targets), hmem, rfl, hv⟩

end Adjacency

/-! ## 6. Validation is exact -/

section Exact

variable {graph : StateGraph}

theorem addEdgeTargets_eq_ok (m : Adjacency) (entry : Bytes × List Bytes)
    (m' : Adjacency) :
    graph.addEdgeTargets m entry = .ok m' ↔ ((entry.1 = START ∨ contains entry.1 graph.nodes) ∧
        ¬ contains entry.1 graph.routers ∧
        ¬ contains entry.1 graph.commandDestinations ∧
        ∀ w ∈ entry.2, graph.hasNodeOrEnd w) ∧ set entry.1 entry.2 m = m' := by
  rw [addEdgeTargets, require_bind_eq_ok, require_bind_eq_ok, require_bind_eq_ok,
    forM_bind_eq_ok_iff]
  simp [requireTarget, pure, Except.pure, and_assoc]

theorem addRouterTargets_eq_ok (m : Adjacency) (entry : Bytes × Router)
    (m' : Adjacency) :
    graph.addRouterTargets m entry = .ok m' ↔ ((entry.1 = START ∨ contains entry.1 graph.nodes) ∧
        ¬ contains entry.1 graph.commandDestinations ∧
        ∀ w ∈ targetsOf graph.routerDestinations entry.1, graph.hasNodeOrEnd w) ∧
      graph.withDestinations m entry.1 (targetsOf graph.routerDestinations entry.1) = m' := by
  simp [addRouterTargets, require_bind_eq_ok, addDestinations_eq_ok, and_assoc]

theorem addCommandTargets_eq_ok (m : Adjacency) (entry : Bytes × List Bytes)
    (m' : Adjacency) :
    graph.addCommandTargets m entry = .ok m' ↔
      (contains entry.1 graph.nodes ∧ ∀ w ∈ entry.2, graph.hasNodeOrEnd w) ∧
      graph.withDestinations m entry.1 entry.2 = m' := by
  simp [addCommandTargets, require_bind_eq_ok, addDestinations_eq_ok, and_assoc]

theorem mem_search_reverse_iff (v : Bytes) :
    contains v (search (reverseAdjacency graph.adjacency) END) ↔
      ReflTransGen (fun a b => b ∈ targetsOf graph.adjacency a) v END := by
  rw [mem_search_iff, ← reflTransGen_swap]
  simp only [mem_reverseAdjacency_iff graph.increasing_adjacency]

/-- The checks of `validate` over the finished adjacency map. -/
structure Passes (graph : StateGraph) : Prop where
  starts : targetsOf graph.edges START ≠ [] ∨ contains START graph.routers
  edges : ∀ entry ∈ graph.edges, (entry.1 = START ∨ contains entry.1 graph.nodes) ∧
    ¬ contains entry.1 graph.routers ∧ ¬ contains entry.1 graph.commandDestinations ∧
    ∀ w ∈ entry.2, graph.hasNodeOrEnd w
  routers : ∀ entry ∈ graph.routers, (entry.1 = START ∨ contains entry.1 graph.nodes) ∧
    ¬ contains entry.1 graph.commandDestinations ∧
    ∀ w ∈ targetsOf graph.routerDestinations entry.1, graph.hasNodeOrEnd w
  commands : ∀ entry ∈ graph.commandDestinations, contains entry.1 graph.nodes ∧
    ∀ w ∈ entry.2, graph.hasNodeOrEnd w
  reachesEnd : contains END (search graph.adjacency START)
  nodes : ∀ node ∈ graph.nodes, contains node.1 (search graph.adjacency START)
  finishes : ∀ node ∈ search graph.adjacency START,
    node.1 = END ∨ contains node.1 (search (reverseAdjacency graph.adjacency) END)

theorem validate_eq_ok_iff_passes : graph.validate = .ok () ↔ graph.Passes := by
  rw [validate, require_bind_eq_ok, foldlM_bind_eq_ok_iff addEdgeTargets_eq_ok,
    foldlM_bind_eq_ok_iff addRouterTargets_eq_ok,
    foldlM_bind_eq_ok_iff addCommandTargets_eq_ok]
  change _ ∧ _ ∧ _ ∧ _ ∧ (require (contains END (search graph.adjacency START)) _ >>= _) = _ ↔ _
  rw [require_bind_eq_ok, forM_bind_eq_ok_iff, forM_eq_ok_iff]
  simp only [require_eq_ok, Bool.or_eq_true, decide_eq_true_eq]
  constructor
  all_goals
    rintro ⟨hs, he, hr, hc, hend, hn, hf⟩
    exact ⟨hs, he, hr, hc, hend, hn, hf⟩

theorem Formed.successor_eq (h : graph.Formed) (hkind : graph.OneKind) :
    (fun a b => b ∈ targetsOf graph.adjacency a) = graph.Successor :=
  funext fun v => funext fun w => propext (h.mem_adjacency_iff hkind v w)

theorem Passes.oneKind (h : graph.Passes) : graph.OneKind where
  edges v hv := by
    obtain ⟨entry, hentry, rfl⟩ := contains_iff.mp hv
    exact ⟨(h.edges entry hentry).2.1, (h.edges entry hentry).2.2.1⟩
  routers v hv := by
    obtain ⟨entry, hentry, rfl⟩ := contains_iff.mp hv
    exact (h.routers entry hentry).2.1

theorem Passes.target (h : graph.Passes) (hformed : graph.Formed) {v w : Bytes}
    (hw : graph.Declared v w) : graph.hasNodeOrEnd w := by
  rcases hw with hw | hw | hw
  · obtain ⟨targets, hmem, hw⟩ := exists_mem_of_mem_targetsOf hw
    exact (h.edges _ hmem).2.2.2 w hw
  · by_cases hv : contains v graph.routers
    · obtain ⟨entry, hentry, rfl⟩ := contains_iff.mp hv
      exact (h.routers entry hentry).2.2 w hw
    · rw [targetsOf_of_not_contains (hformed.destinations v ▸ hv)] at hw; cases hw
  · obtain ⟨targets, hmem, hw⟩ := exists_mem_of_mem_targetsOf hw
    exact (h.commands _ hmem).2 w hw

theorem Passes.valid (h : graph.Passes) (hformed : graph.Formed) : graph.Valid := by
  have hsuccessor := hformed.successor_eq h.oneKind
  refine {
    starts := h.starts.imp_left fun hne => ?_
    edgeSource := fun v hv => ?_
    routerSource := fun v hv => ?_
    commandSource := fun v hv => ?_
    oneKind := h.oneKind
    target := fun v w hw => h.target hformed hw
    reached := fun v hv => ?_
    finishes := fun v hv => ?_ }
  · by_contra hcontains
    exact hne (targetsOf_of_not_contains hcontains)
  · obtain ⟨entry, hentry, rfl⟩ := contains_iff.mp hv
    exact (h.edges entry hentry).1
  · obtain ⟨entry, hentry, rfl⟩ := contains_iff.mp hv
    exact (h.routers entry hentry).1
  · obtain ⟨entry, hentry, rfl⟩ := contains_iff.mp hv
    exact (h.commands entry hentry).1
  · rw [← hsuccessor, ← mem_search_iff]
    rcases Bool.or_eq_true _ _ ▸ hv with hv | hv
    · rw [of_decide_eq_true hv]; exact h.reachesEnd
    · obtain ⟨node, hnode, rfl⟩ := contains_iff.mp hv
      exact h.nodes node hnode
  · rw [← hsuccessor, ← mem_search_iff] at hv
    obtain ⟨node, hnode, rfl⟩ := contains_iff.mp hv
    rcases h.finishes node hnode with heq | hreach
    · rw [heq]
    · rw [← hsuccessor, ← mem_search_reverse_iff]; exact hreach

theorem Valid.passes (h : graph.Valid) (hformed : graph.Formed) : graph.Passes := by
  have hsuccessor := hformed.successor_eq h.oneKind
  have hreached (v : Bytes) (hv : graph.hasNodeOrEnd v) :
      contains v (search graph.adjacency START) := by
    rw [mem_search_iff, hsuccessor]; exact h.reached v hv
  have hkey {α : Type} {m : List (Bytes × α)} {entry : Bytes × α} (hentry : entry ∈ m) :
      contains entry.1 m := contains_iff.mpr ⟨entry, hentry, rfl⟩
  refine ⟨h.starts.imp_left (hformed.edgeTargets START), fun entry hentry => ?_,
    fun entry hentry => ?_, fun entry hentry => ?_, hreached END (by simp [hasNodeOrEnd]),
    fun node hnode => hreached node.1 (by simp [hasNodeOrEnd, hkey hnode]), fun node hnode => ?_⟩
  · obtain ⟨hrouter, hcommand⟩ := h.oneKind.edges _ (hkey hentry)
    refine ⟨h.edgeSource _ (hkey hentry), hrouter, hcommand, fun w hw =>
      h.target entry.1 w (.inl ?_)⟩
    rwa [targetsOf_of_mem hformed.edges hentry]
  · exact ⟨h.routerSource _ (hkey hentry), h.oneKind.routers _ (hkey hentry),
      fun w hw => h.target entry.1 w (.inr (.inl hw))⟩
  · refine ⟨h.commandSource _ (hkey hentry), fun w hw => h.target entry.1 w (.inr (.inr ?_))⟩
    rwa [targetsOf_of_mem hformed.commands hentry]
  · refine .inr ((mem_search_reverse_iff node.1).mpr ?_)
    rw [hsuccessor]
    refine h.finishes node.1 ?_
    rw [← hsuccessor, ← mem_search_iff]; exact hkey hnode

end Exact

/-- `validate` returns OK for a built graph exactly if the graph is valid. -/
theorem validate_ok_iff_valid (graph : StateGraph) (h : graph.Built) :
    graph.validate = .ok () ↔ graph.Valid :=
  validate_eq_ok_iff_passes.trans
    ⟨fun hpasses => hpasses.valid h.formed, fun hvalid => hvalid.passes h.formed⟩

def silentNode : State → Runtime → HandlerOutcome := fun _ _ => .threw none

/-- A router leads from `a` to `b` or the end, and a command from `b` back to `a` or to the end. -/
def routedGraph : StateGraph where
  nodes := [(lit "a", { handler := silentNode }), (lit "b", { handler := silentNode })]
  edges := [(START, [lit "a"])]
  routers := [(lit "a", fun _ _ => .ok [])]
  routerDestinations := [(lit "a", [END, lit "b"])]
  commandDestinations := [(lit "b", [END, lit "a"])]

theorem validate_routedGraph :
    routedGraph.Built ∧ (routedGraph.validate = .ok () ↔ routedGraph.Valid) := by
  let nodes : StateGraph := { nodes := routedGraph.nodes }
  have hnodes : nodes.Built := by
    have ha : ({} : StateGraph).addNode (lit "a") (some silentNode) {} = .ok _ := rfl
    exact .addNode (.addNode (.new {}) ha) (show StateGraph.addNode _ (lit "b") (some silentNode) {}
      = .ok nodes from rfl)
  have hedge : nodes.addEdge START (lit "a") = .ok { nodes with edges := routedGraph.edges } := rfl
  have hrouter : StateGraph.registerRoute { nodes with edges := routedGraph.edges } (lit "a")
      (some fun _ _ => .ok []) [lit "b", END] =
        .ok { routedGraph with commandDestinations := [] } := rfl
  have hcommand : StateGraph.addCommandRoute { routedGraph with commandDestinations := [] }
      (lit "b") [lit "a", END] = .ok routedGraph := rfl
  have hbuilt : routedGraph.Built :=
    .addCommandRoute (.registerRoute (.addEdge hnodes hedge) hrouter) hcommand
  exact ⟨hbuilt, validate_ok_iff_valid routedGraph hbuilt⟩

end StateGraph

end LangGraph
