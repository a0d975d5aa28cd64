import Converge.Proofs.FileBacked
/-!
# A file that is as good as a map

`NodeMap` is the abstract store: a list of nodes in which each name stands once, and a function from
keys to records.  Main statement: whatever is asked of a store in a file on a writable path, each
time through a store object of its own, the answers are those of the abstract store
(`FileStore.serve_eq`).
-/

namespace Converge.Membership

variable {σ : Type}

/-! ## Requests -/

/-- What a store is asked for. -/
inductive Request where
  | nodes
  | findNode (name : String)
  | record (key : String)
  | setRecord (key : String) (value : Record)
  | addNode (node : Node)
  | removeNode (name : String)

/-- What a store answers. -/
inductive Reply where
  | done
  | nodes (nodes : List Node)
  | node (node : Node)
  | record (record : Record)

namespace Request

/-- The records that are written are legible. -/
def Legible : Request → Prop
  | .setRecord _ value => (Json.ofRecord value).Legible Document.recordDepth
  | _ => True

/-- Whether a request registers or takes out a node with the name. -/
def Concerns (name : String) : Request → Prop
  | .addNode node => node.name = name
  | .removeNode other => other = name
  | _ => False

/-- Asks a store in a file. -/
def ask (disk : Disk (StateM σ)) (store : FileStore) : Request → ExceptT Error (StateM σ) Reply
  | .nodes => return .nodes (← (store.toStore disk).nodes)
  | .findNode name => return .node (← (store.toStore disk).findNode name)
  | .record key => return .record (← (store.toStore disk).record key)
  | .setRecord key value => do
    (store.toStore disk).setRecord key value
    return .done
  | .addNode node => do
    store.addNode disk node
    return .done
  | .removeNode name => do
    store.removeNode disk name
    return .done

end Request

/-- Asks for one thing after another, each through a store object of its own, whether or not the
requests before have failed. -/
def FileStore.serve (disk : Disk (StateM σ)) :
    List (FileStore × Request) → σ → List (Except Error Reply) × σ
  | [], s => ([], s)
  | (store, request) :: rest, s =>
    let (reply, s) := exec (request.ask disk store) s
    let (replies, s) := serve disk rest s
    (reply :: replies, s)

/-! ## The abstract store -/

/-- A list of nodes in the order of their last registration, each name once, and a record for some
of the keys. -/
structure NodeMap where
  nodes : List Node
  record? : String → Option Record
  distinct : (nodes.map (·.name)).Nodup

namespace NodeMap

/-- The nodes without those that have a name. -/
def without (map : NodeMap) (name : String) : NodeMap where
  nodes := map.nodes.filter (·.name ≠ name)
  record? := map.record?
  distinct := map.distinct.sublist (List.filter_sublist.map _)

/-- A node at the end, in place of one with its name. -/
def withNode (map : NodeMap) (node : Node) : NodeMap where
  nodes := (map.without node.name).nodes ++ [node]
  record? := map.record?
  distinct := by
    rw [List.map_append, List.nodup_append]
    refine ⟨(map.without node.name).distinct, by simp, fun name hname other hother => ?_⟩
    obtain ⟨kept, hkept, rfl⟩ := List.mem_map.1 hname
    rw [List.map_singleton, List.mem_singleton] at hother
    rw [hother]
    exact of_decide_eq_true (List.mem_filter.1 hkept).2

/-- A record under a key. -/
def withRecord (map : NodeMap) (key : String) (record : Record) : NodeMap where
  nodes := map.nodes
  record? other := if other = key then some record else map.record? other
  distinct := map.distinct

/-- The answer to a request. -/
def reply (map : NodeMap) : Request → Except Error Reply
  | .nodes => .ok (.nodes map.nodes)
  | .findNode name =>
    match map.nodes.find? (·.name = name) with
    | some node => .ok (.node node)
    | none => .error (.nodeNotFound name)
  | .record key =>
    match map.record? key with
    | some record => .ok (.record record)
    | none => .error (.recordNotFound key)
  | .setRecord .. | .addNode _ => .ok .done
  | .removeNode name =>
    if name ∈ map.nodes.map (·.name) then .ok .done else .error (.nodeNotFound name)

/-- The store after a request. -/
def next (map : NodeMap) : Request → NodeMap
  | .nodes | .findNode _ | .record _ => map
  | .setRecord key value => map.withRecord key value
  | .addNode node => map.withNode node
  | .removeNode name => if name ∈ map.nodes.map (·.name) then map.without name else map

/-- The answers to requests that follow each other, and the store after them. -/
def serve (map : NodeMap) : List Request → List (Except Error Reply) × NodeMap
  | [] => ([], map)
  | request :: rest =>
    let (replies, last) := (map.next request).serve rest
    (map.reply request :: replies, last)

/-- The content of a document whose nodes have different names. -/
def ofDocument (doc : Document) (h : (doc.nodes.map (·.name)).Nodup) : NodeMap :=
  ⟨doc.nodes, doc.record?, h⟩

end NodeMap

/-! ### What a request leaves as it is -/

/-- A request for reading that a change does not touch. -/
inductive Untouched : Request → Request → Prop
  | nodes (key : String) (value : Record) : Untouched (.setRecord key value) .nodes
  | findNode (key : String) (value : Record) (name : String) :
      Untouched (.setRecord key value) (.findNode name)
  | other {key other : String} (value : Record) (h : other ≠ key) :
      Untouched (.setRecord key value) (.record other)
  | added (node : Node) (key : String) : Untouched (.addNode node) (.record key)
  | removed (name key : String) : Untouched (.removeNode name) (.record key)

theorem Untouched.legible {request query : Request} (h : Untouched request query) :
    query.Legible := by
  cases h <;> trivial

namespace NodeMap

variable {map : NodeMap} {request : Request} {name : String}

theorem record?_next_removeNode (map : NodeMap) (name : String) :
    (map.next (.removeNode name)).record? = map.record? := by
  rw [next]
  split <;> rfl

/-- What a change does not touch is answered after it as before. -/
theorem reply_untouched {query : Request} (h : Untouched request query) :
    (map.next request).reply query = map.reply query := by
  cases h with
  | nodes | findNode | added => rfl
  | other value h => simp only [reply, next, withRecord, if_neg h]
  | removed other key => simp only [reply, record?_next_removeNode]

theorem find?_without {other : String} (h : name ≠ other) :
    (map.without other).nodes.find? (·.name = name) = map.nodes.find? (·.name = name) := by
  rw [without, List.find?_filter]
  congr
  funext node
  by_cases hname : node.name = name
  · simp [hname, h]
  · simp [hname]

/-- A node is found under its name until a request concerns the name. -/
theorem find?_next (h : ¬ request.Concerns name) :
    (map.next request).nodes.find? (·.name = name) = map.nodes.find? (·.name = name) := by
  cases request with
  | nodes | findNode | record | setRecord => rfl
  | addNode node =>
    have hne : name ≠ node.name := fun heq => h heq.symm
    show ((map.without node.name).nodes ++ [node]).find? _ = _
    rw [List.find?_append, find?_without hne]
    simp [Ne.symm hne]
  | removeNode other =>
    rw [next]
    split
    · exact find?_without fun heq => h heq.symm
    · rfl

theorem find?_serve {requests : List Request} (h : ∀ request ∈ requests, ¬ request.Concerns name) :
    (map.serve requests).2.nodes.find? (·.name = name) = map.nodes.find? (·.name = name) := by
  induction requests generalizing map with
  | nil => rfl
  | cons request rest ih =>
    obtain ⟨hrequest, hrest⟩ := List.forall_mem_cons.1 h
    show ((map.next request).serve rest).2.nodes.find? _ = _
    rw [ih hrest, find?_next hrequest]

theorem serve_append (before after : List Request) :
    (map.serve (before ++ after)).2 = ((map.serve before).2.serve after).2 := by
  induction before generalizing map with
  | nil => rfl
  | cons request before ih => exact ih

/-- The node that was registered last under a name is found. -/
theorem find?_serve_addNode (map : NodeMap) (before : List Request) {after : List Request}
    {node : Node} (h : ∀ request ∈ after, ¬ request.Concerns node.name) :
    (map.serve (before ++ .addNode node :: after)).2.nodes.find? (·.name = node.name) =
      some node := by
  rw [serve_append]
  show (((map.serve before).2.withNode node).serve after).2.nodes.find? _ = _
  rw [find?_serve h]
  show (((map.serve before).2.without node.name).nodes ++ [node]).find? _ = _
  have hnone : ((map.serve before).2.without node.name).nodes.find? (·.name = node.name) = none :=
    List.find?_eq_none.2 fun kept hkept => by simpa using (List.mem_filter.1 hkept).2
  rw [List.find?_append, hnone]
  simp

end NodeMap

/-! ## One request -/

/-- The content of a file is a legible document that says the same as an abstract store. -/
structure Holds (content : Option Content) (map : NodeMap) (doc : Document) : Prop where
  loads : Document.ofContent content = .ok doc
  legible : doc.Legible
  nodes : doc.nodes = map.nodes
  record? : ∀ key, doc.record? key = map.record? key

namespace Holds

variable {content : Option Content} {map : NodeMap} {doc : Document}

theorem setRecord (h : Holds content map doc) {key : String} {record : Record}
    (hlegible : (Json.ofRecord record).Legible Document.recordDepth) :
    Holds (some (.text (doc.setRecord key record).text)) (map.withRecord key record)
      (doc.setRecord key record) := by
  have hdoc := h.legible.setRecord key hlegible
  refine ⟨Document.ofContent_text hdoc, hdoc, h.nodes, fun other => ?_⟩
  rw [Document.record?_setRecord, NodeMap.withRecord, h.record?]

theorem dropNode (h : Holds content map doc) (name : String) :
    Holds (some (.text (doc.dropNode name).text)) (map.without name) (doc.dropNode name) := by
  have hdoc : (doc.dropNode name).Legible := h.legible
  refine ⟨Document.ofContent_text hdoc, hdoc, ?_, h.record?⟩
  rw [Document.dropNode, NodeMap.without, h.nodes]

theorem addNode (h : Holds content map doc) (node : Node) :
    Holds (some (.text (doc.addNode node).text)) (map.withNode node) (doc.addNode node) := by
  have hdoc : (doc.addNode node).Legible := h.legible
  refine ⟨Document.ofContent_text hdoc, hdoc, ?_, h.record?⟩
  show _ = map.nodes.filter (·.name ≠ node.name) ++ [node]
  rw [← h.nodes]
  rfl

theorem hasNode_iff (h : Holds content map doc) (name : String) :
    doc.hasNode name ↔ name ∈ map.nodes.map (·.name) := by
  simp [Document.hasNode, h.nodes]

end Holds

section

variable {store : FileStore} {disk : Disk (StateM σ)} {ready prepared : σ → Prop}
  {file temporary : σ → Option Content} {map : NodeMap} {doc : Document} {s : σ}

/-- A request is answered as the abstract store answers it, and done to the file as it is done to
the abstract store. -/
theorem Request.exec_ask (writable : store.Writable disk ready prepared file temporary)
    (hs : ready s) (h : Holds (file s) map doc) (request : Request) (hlegible : request.Legible) :
    ∃ s' doc', exec (request.ask disk store) s = (map.reply request, s') ∧ ready s' ∧
      Holds (file s') (map.next request) doc' := by
  have hnodes := writable.exec_nodes hs
  rw [h.loads] at hnodes
  cases request with
  | nodes =>
    refine ⟨s, doc, ?_, hs, h⟩
    rw [NodeMap.reply, ← h.nodes]
    exact exec_bind_ok hnodes _
  | findNode name =>
    have hfind : exec ((store.toStore disk).findNode name) s =
        (match map.nodes.find? (·.name = name) with
          | some node => .ok node
          | none => .error (.nodeNotFound name), s) := by
      rw [← h.nodes]
      refine (exec_bind_ok hnodes _).trans ?_
      cases doc.nodes.find? (·.name = name) <;> rfl
    cases hnode : map.nodes.find? (·.name = name) with
    | none =>
      rw [hnode] at hfind
      simp only [NodeMap.reply, hnode]
      exact ⟨s, doc, exec_bind_error hfind _, hs, h⟩
    | some node =>
      rw [hnode] at hfind
      simp only [NodeMap.reply, hnode]
      exact ⟨s, doc, exec_bind_ok hfind _, hs, h⟩
  | record key =>
    have hfind := writable.exec_record hs key
    rw [h.loads] at hfind
    cases hrecord : map.record? key with
    | none =>
      simp only [Except.bind, h.record?, hrecord] at hfind
      simp only [NodeMap.reply, hrecord]
      exact ⟨s, doc, exec_bind_error hfind _, hs, h⟩
    | some record =>
      simp only [Except.bind, h.record?, hrecord] at hfind
      simp only [NodeMap.reply, hrecord]
      exact ⟨s, doc, exec_bind_ok hfind _, hs, h⟩
  | setRecord key value =>
    obtain ⟨s', hupdate, hs', hfile⟩ :=
      writable.exec_update hs h.loads fun doc => doc.setRecord key value
    refine ⟨s', doc.setRecord key value, exec_bind_ok hupdate _, hs', ?_⟩
    rw [hfile]
    exact h.setRecord hlegible
  | addNode node =>
    obtain ⟨s', hupdate, hs', hfile⟩ :=
      writable.exec_update hs h.loads fun doc => doc.addNode node
    refine ⟨s', doc.addNode node, exec_bind_ok hupdate _, hs', ?_⟩
    rw [hfile]
    exact h.addNode node
  | removeNode name =>
    have hremove := writable.exec_removeNode hs h.loads name
    by_cases hmem : name ∈ map.nodes.map (·.name)
    · rw [if_pos ((h.hasNode_iff name).2 hmem)] at hremove
      obtain ⟨s', hremove, hs', hfile⟩ := hremove
      simp only [NodeMap.reply, NodeMap.next, if_pos hmem]
      refine ⟨s', doc.dropNode name, exec_bind_ok hremove _, hs', ?_⟩
      rw [hfile]
      exact h.dropNode name
    · rw [if_neg (mt (h.hasNode_iff name).1 hmem)] at hremove
      simp only [NodeMap.reply, NodeMap.next, if_neg hmem]
      exact ⟨s, doc, exec_bind_error hremove _, hs, h⟩

/-- Requests that follow each other are answered as the abstract store answers them. -/
theorem FileStore.exists_serve (writable : store.Writable disk ready prepared file temporary)
    (requests : List (FileStore × Request))
    (hrequests : ∀ entry ∈ requests, entry.1.path = store.path ∧ entry.2.Legible)
    (hs : ready s) (h : Holds (file s) map doc) :
    ∃ s' doc', FileStore.serve disk requests s = ((map.serve (requests.map (·.2))).1, s') ∧
      ready s' ∧ Holds (file s') (map.serve (requests.map (·.2))).2 doc' := by
  induction requests generalizing s map doc with
  | nil => exact ⟨s, doc, rfl, hs, h⟩
  | cons entry rest ih =>
    obtain ⟨other, request⟩ := entry
    obtain ⟨⟨hpath, hlegible⟩, hrest⟩ := List.forall_mem_cons.1 hrequests
    -- a store object is its path
    obtain rfl : other = store := by
      cases other
      cases store
      exact congrArg FileStore.mk hpath
    obtain ⟨s₁, doc₁, hask, hs₁, h₁⟩ := request.exec_ask writable hs h hlegible
    obtain ⟨s', doc', hserve, hs', h'⟩ := ih hrest hs₁ h₁
    refine ⟨s', doc', ?_, hs', h'⟩
    rw [FileStore.serve, hask]
    show (_ :: (FileStore.serve disk rest s₁).1, (FileStore.serve disk rest s₁).2) = _
    rw [hserve]
    rfl

end

/-- A store in a file on a writable path, opened anew for each request or not, answers as the
abstract store does that begins with what can be loaded from the file; so nodes have different
names, a node is found as it was registered last, and a change leaves all else untouched. -/
theorem FileStore.serve_eq {store : FileStore} {disk : Disk (StateM σ)} {ready prepared : σ → Prop}
    {file temporary : σ → Option Content} {doc : Document} {s : σ}
    (writable : store.Writable disk ready prepared file temporary) (hs : ready s)
    (hload : Document.ofContent (file s) = .ok doc) (hsteady : doc.Steady)
    (hdistinct : (doc.nodes.map (·.name)).Nodup) (requests : List (FileStore × Request))
    (hrequests : ∀ entry ∈ requests, entry.1.path = store.path ∧ entry.2.Legible) :
    let s' := (FileStore.serve disk requests s).2
    (FileStore.serve disk requests s).1 =
        ((NodeMap.ofDocument doc hdistinct).serve (requests.map (·.2))).1 ∧
      (∃ nodes, (exec (Request.nodes.ask disk store) s').1 = .ok (.nodes nodes) ∧
        (nodes.map (·.name)).Nodup) ∧
      (∀ before opened node after, requests = before ++ (opened, .addNode node) :: after →
        (∀ entry ∈ after, ¬ entry.2.Concerns node.name) →
        (exec ((Request.findNode node.name).ask disk store) s').1 = .ok (.node node)) ∧
      ∀ request query, Untouched request query → request.Legible →
        (exec (query.ask disk store) (exec (request.ask disk store) s').2).1 =
          (exec (query.ask disk store) s').1 := by
  have hlegible : doc.Legible := Document.legible_of_ofContent hload hsteady
  have hholds : Holds (file s) (NodeMap.ofDocument doc hdistinct) doc :=
    ⟨hload, hlegible, rfl, fun _ => rfl⟩
  obtain ⟨s', doc', hserve, hs', h'⟩ := exists_serve writable requests hrequests hs hholds
  rw [hserve]
  refine ⟨rfl, ?_, ?_, ?_⟩
  · obtain ⟨s₁, doc₁, hnodes, -⟩ := Request.exec_ask writable hs' h' .nodes trivial
    rw [hnodes]
    exact ⟨_, rfl, NodeMap.distinct _⟩
  · rintro before opened node after rfl hafter
    obtain ⟨s₁, doc₁, hfind, -⟩ := Request.exec_ask writable hs' h' (.findNode node.name) trivial
    have hlast := NodeMap.find?_serve_addNode (NodeMap.ofDocument doc hdistinct)
      (before.map (·.2)) (List.forall_mem_map.2 hafter)
    rw [hfind]
    simp only [NodeMap.reply, List.map_append, List.map_cons, hlast]
  · intro request query huntouched hrequest
    obtain ⟨s₁, doc₁, hask, hs₁, h₁⟩ := request.exec_ask writable hs' h' hrequest
    obtain ⟨s₂, doc₂, hquery, -⟩ := query.exec_ask writable hs₁ h₁ huntouched.legible
    obtain ⟨s₃, doc₃, hbefore, -⟩ := query.exec_ask writable hs' h' huntouched.legible
    rw [hask, hquery, hbefore, NodeMap.reply_untouched huntouched]

/-- On an empty tree, a node that is registered twice is found on its second machine, and a record
with the greatest integer is kept. -/
theorem FileStore.serve_eq_inRoot :
    let greatest : Record := .ofList [("n", .int (2 ^ 64 - 1))]
    (FileStore.serve (FileTree.disk id fun tree _ => tree)
      [(inRoot, .addNode ⟨"a", "1"⟩), (inRoot, .setRecord "k" greatest),
        (inRoot, .addNode ⟨"a", "2"⟩), (inRoot, .findNode "a"), (inRoot, .record "k"),
        (inRoot, .removeNode "b")] FileTree.empty).1 =
      [.ok .done, .ok .done, .ok .done, .ok (.node ⟨"a", "2"⟩), .ok (.record greatest),
        .error (.nodeNotFound "b")] := by
  intro greatest
  have hready : RootIsReady FileTree.empty := by
    intro name _
    nofun
  have hlegible : (Json.ofRecord greatest).Legible Document.recordDepth :=
    .obj (Dict.sorted _) fun field hmem => by
      rw [List.mem_singleton.1 (Dict.mem_of_mem_ofList hmem)]
      exact .int (by decide)
  have hwritable : inRoot.Writable (FileTree.disk id fun tree _ => tree) RootIsReady RootIsReady
      (rootFile? "cluster.json") (rootFile? "cluster.tmp") :=
    writable_inRoot (fun _ _ => rfl) fun _ => rfl
  have hload : Document.ofContent (rootFile? "cluster.json" FileTree.empty) = .ok .empty := rfl
  have hserve := serve_eq hwritable hready hload nofun .nil
    [(inRoot, .addNode ⟨"a", "1"⟩), (inRoot, .setRecord "k" greatest),
      (inRoot, .addNode ⟨"a", "2"⟩), (inRoot, .findNode "a"), (inRoot, .record "k"),
      (inRoot, .removeNode "b")] (by simp [Request.Legible, hlegible])
  exact hserve.1

end Converge.Membership
