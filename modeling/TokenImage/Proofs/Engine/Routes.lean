/-
# Three routes to a token

A parse needs a run, a decoder and a release, and there are three ways to put them together.  A
session does all of it.  A client may acquire a guard, decode what the guard shows as the root, and
drop the guard.  Or it runs the engine itself, looks up the root in the result, decodes it, and
releases the handle on the same engine.

They ask in different places whether there is a tree: the session before it decodes, the guard when
it is asked for its root, and the client that has a bare handle asks whether that or the root is null.
All of them come down to one pointer, `Memory.ast`, and to what a decoder makes of the node there
(`Route.run_take`).  So the routes leave the same behind, report the same while they decode, and give
the same where there is a root; where there is none, a session says that there was no match, and the
others have decoded a null pointer.  `routes_agree` puts this together.
-/
import TokenImage.Proofs.Engine.EndToEnd

namespace TokenImage

open Session (variedScript echoingHost)

variable {n : Nat}

/-! ## 1. The root of a result -/

/-- The pointer to the tree of a result; it is null without a match, and without a result. -/
def Memory.ast (m : Memory) (handle : Nat) : Nat :=
  if handle = 0 then 0 else (m.resultRoot handle).getD 0

/-- The root of a guard is that pointer, where there is a root. -/
theorem Guard.getD_root? (g : Guard n) (m : Memory) : (g.root? m).getD 0 = m.ast g.handle := by
  rw [root?, Memory.ast]
  by_cases hhandle : g.handle = 0
  · rw [if_pos hhandle, if_pos hhandle]
    rfl
  rw [if_neg hhandle, if_neg hhandle]
  cases m.resultRoot g.handle with
  | none => rfl
  | some root =>
    by_cases hroot : root = 0
    · rw [hroot]
      rfl
    · rw [Option.filter_some, if_pos (decide_eq_true hroot)]

/-- **The node of a reply lies at the root of its result**, a null node at the null pointer. -/
theorem Host.Shows.laid_ast {host : Host n} {i : Fin n} {handle inputLength : Nat} {reply : Reply}
    (h : host.Shows i handle reply inputLength) :
    ∃ blocks, host.heap.memory.Laid blocks (host.heap.memory.ast handle) reply.node := by
  cases h with
  | null => exact ⟨[], .null⟩
  | @result _ _ _ tree _ _ hat =>
    have hast : host.heap.memory.ast handle = tree.elim 0 ForeignTree.root := by
      rw [Memory.ast, if_neg hat.handle_ne_zero, hat.root_eq]
      rfl
    exact ⟨_, hast ▸ hat.laid⟩

/-- What is reported of the node of a reply is at the level of debugging. -/
theorem Host.Shows.debug {host : Host n} {i : Fin n} {handle inputLength : Nat} {reply : Reply}
    (h : host.Shows i handle reply inputLength) (d : Decoder) :
    ∀ event ∈ (d.readNode reply.node).events, event.level = .debug := by
  obtain ⟨blocks, hlaid⟩ := h.laid_ast
  rw [← hlaid.decode]
  exact Decoder.decode_events

/-! ## 2. Routes -/

/-- The ways to a token: by a session, by a guard that is dropped after its tree is decoded, and by a
handle that the client releases itself. -/
inductive Route where
  | session
  | guard
  | handle
  deriving DecidableEq

/-- What a client has in the end: whether there was a root, if the route tells, and what the decoder
or the session gave. -/
structure Arrival where
  hasRoot : Option Bool := none
  outcome : Except Error Token

namespace Route

/-- What a client does with a guard: it asks whether there is a root, and decodes it, or else a null
pointer. -/
def look (limit : Option UInt64) (g : Guard n) : Action (Host n) Arrival :=
  .look fun host =>
    let root := g.root? host.heap.memory
    let tree := ({ maxDepth := limit } : Decoder).decode host.heap.memory (root.getD 0)
    (tree.events, { hasRoot := some root.isSome, outcome := tree.result })

/-- What it does with a bare handle: it looks up the root and decodes it, null or not. -/
def lookAt (limit : Option UInt64) (handle : Nat) : Action (Host n) Arrival :=
  .look fun host =>
    let ast := host.heap.memory.ast handle
    let tree := ({ maxDepth := limit } : Decoder).decode host.heap.memory ast
    (tree.events, { hasRoot := some (ast != 0), outcome := tree.result })

/-- **A route, taken** on an engine of a host, with a limit or without one. -/
def take (A : Allocators) (i : Fin n) (limit : Option UInt64) (script : Script)
    (input : List UInt8) : Route → Action (Host n) Arrival
  | .session => do
    let outcome ← (Session.withOptions i ⟨limit⟩).parse A script input
    pure { outcome }
  | .guard => Guard.holding A i script input (look limit)
  | .handle => do
    let handle ← Host.run A i script input
    let arrival ← lookAt limit handle
    Host.release i handle
    pure arrival

/-- What a client has at the end of a route, if the reply had this node. -/
def arrival (d : Decoder) (node : Node) : Route → Arrival
  | .session => { outcome := if node.isNull then .error Session.noMatchError else d.outcome node }
  | .guard | .handle => { hasRoot := some !node.isNull, outcome := d.outcome node }

/-- What is reported after all else: only a session has something to say. -/
def closing (inputLength : Nat) (outcome : Except Error Token) : Route → List Event
  | .session => [Session.closingEvent inputLength outcome]
  | .guard | .handle => []

end Route

/-! ## 3. One route -/

/-- A session that is made with a limit decodes with it. -/
theorem Session.decoder_withOptions (i : Fin n) (limit : Option UInt64) :
    (withOptions i ⟨limit⟩).decoder = { maxDepth := limit } := by
  cases limit <;> rfl

/-- Nothing is reported about a null node. -/
theorem Decoder.events_readNode_of_isNull (d : Decoder) {node : Node} (h : node.isNull = true) :
    (d.readNode node).events = [] := by
  obtain ⟨shape, index, bitOffset, spare⟩ := node
  cases shape with
  | null =>
    rw [readNode, Traced.events_mapError]
    cases d.room with
    | zero => rw [Node.read]; rfl
    | succ room => rw [Node.read]; rfl
  | tagged | none | bytes | signed | unsigned | sequence => cases h

/-- What a session reads of the result of a reply, it reads of its node. -/
theorem Session.outcomeAt_withOptions {host : Host n} {i : Fin n} {limit : Option UInt64}
    {handle inputLength : Nat} {reply : Reply} (h : host.Shows i handle reply inputLength) :
    (withOptions i ⟨limit⟩).outcomeAt host.heap.memory handle =
      ((({ maxDepth := limit } : Decoder).readNode reply.node).events,
        (Route.session.arrival { maxDepth := limit } reply.node).outcome) := by
  have hengine : (withOptions i ⟨limit⟩).engine = i := rfl
  rw [outcomeAt, hengine, decoder_withOptions, Route.arrival]
  -- without a root the session decodes nothing, and of a null node nothing would be reported
  rcases h.root?_cases with ⟨hnull, hroot⟩ | ⟨hnull, root, blocks, hroot, hlaid⟩
  · rw [hroot, if_pos hnull, Decoder.events_readNode_of_isNull _ hnull]
  · rw [hroot, hnull, ← hlaid.decode, ← hlaid.result_decode]
    rfl

section Take

variable {A : Allocators} {host mid : Host n} {i : Fin n} {limit : Option UInt64} {script : Script}
  {input : List UInt8} {handle : Nat} {reply : Reply}

namespace Route

/-- If the run crashes, so does every route. -/
theorem run_take_of_crash {c : Crash} (r : Route)
    (hrun : (Host.run A i script input).run host = ⟨.error c, mid, []⟩) :
    (r.take A i limit script input).run host = ⟨.error c, mid, []⟩ := by
  cases r with
  | session =>
    have hparse : ((Session.withOptions i ⟨limit⟩).parse A script input).run host =
      ⟨.error c, mid, []⟩ := Session.parse_of_crash hrun
    exact Action.run_bind_of_error hparse
  | guard => exact Guard.holding_of_crash _ hrun
  | handle => exact Action.run_bind_of_error hrun

/-- **What a route does once its run has given a handle**: it arrives at what the decoder makes of the
node of the reply, it has reported what is to be reported of the node, and the handle is released. -/
theorem run_take (r : Route) (hs : script input = .reply reply)
    (hrun : (Host.run A i script input).run host = ⟨.ok handle, mid, []⟩) :
    (r.take A i limit script input).run host =
      ⟨.ok (r.arrival { maxDepth := limit } reply.node), ((Host.release i handle).run mid).state,
        (({ maxDepth := limit } : Decoder).readNode reply.node).events ++
          r.closing input.length (r.arrival { maxDepth := limit } reply.node).outcome⟩ := by
  have hshows := Host.shows_of_run hs hrun
  obtain ⟨blocks, hlaid⟩ := hshows.laid_ast
  have hdecode := hlaid.decode { maxDepth := limit }
  have hresult := hlaid.result_decode { maxDepth := limit }
  rw [hdecode] at hresult
  have hrelease := Host.release_of_run hrun
  -- the routes differ in where the decoder stands between the run and the release
  cases r with
  | session =>
    have hparse := Session.parse_of_run (s := .withOptions i ⟨limit⟩) hrun
    rw [Session.outcomeAt_withOptions hshows] at hparse
    rw [take, Action.run_bind_of_ok hparse]
    simp only [pure, Action.pure, List.append_nil]
    rfl
  | guard =>
    have hholding := Guard.holding_of_handle (look limit) hrun
    have hlook : (look limit ⟨i, handle⟩).run mid =
        ⟨.ok (arrival { maxDepth := limit } reply.node .guard), mid,
          (({ maxDepth := limit } : Decoder).readNode reply.node).events⟩ := by
      simp only [look, Action.look, arrival, Guard.getD_root?, hshows.isSome_root?, hdecode, hresult]
    rw [hlook, hrelease] at hholding
    exact hholding
  | handle =>
    have hlook : (lookAt limit handle).run mid =
        ⟨.ok (arrival { maxDepth := limit } reply.node .handle), mid,
          (({ maxDepth := limit } : Decoder).readNode reply.node).events⟩ := by
      have hroot : (mid.heap.memory.ast handle == 0) = reply.node.isNull :=
        Bool.eq_iff_iff.mpr (beq_iff_eq.trans hlaid.eq_zero_iff)
      simp only [lookAt, Action.look, arrival, hdecode, hresult, bne, hroot]
    rw [take, Action.run_bind_of_ok hrun, Action.run_bind_of_ok hlook, Action.run_bind_of_ok hrelease]
    simp only [pure, Action.pure, closing, List.append_nil, List.nil_append]

/-- **A route that has been taken**: the engine has counted a run and a release, and all else is as it
was; the client has what the node of the reply gives, and what was reported of the node comes first. -/
structure Taken (r : Route) (host : Host n) (i : Fin n) (d : Decoder) (node : Node)
    (inputLength : Nat) (done : Performed (Host n) Arrival) : Prop where
  restored : host.Restored done.state i
  result_eq : done.result = .ok (r.arrival d node)
  events_eq : done.events = (d.readNode node).events ++
    r.closing inputLength (r.arrival d node).outcome
  debug : ∀ event ∈ (d.readNode node).events, event.level = .debug

/-- **A route is taken if the result of the reply can be laid out.** -/
theorem taken_of_fits (r : Route) (hsound : host.Sound) (hs : script input = .reply reply)
    (hfits : reply.Fits (host.allocator A) host.heap input.length) :
    r.Taken host i { maxDepth := limit } reply.node input.length
      ((r.take A i limit script input).run host) := by
  obtain ⟨handle, mid, hrun⟩ := hfits.exists_run hs i
  rw [r.run_take hs hrun]
  exact ⟨Host.restored_of_run hsound hrun, rfl, rfl, (Host.shows_of_run hs hrun).debug _⟩

theorem arrival_of_ne_session {r : Route} (hr : r ≠ .session) (d : Decoder) (node : Node) :
    r.arrival d node = { hasRoot := some !node.isNull, outcome := d.outcome node } := by
  cases r with
  | session => exact absurd rfl hr
  | guard | handle => rfl

end Route

end Take

/-! ## 4. All routes -/

/-- Two hosts count the same on every engine, and on every engine the same handles are out with the
same trees. -/
structure Host.Alike (host host' : Host n) : Prop where
  counters : ∀ j, (host.engine j).counters = (host'.engine j).counters
  holds_iff : ∀ {j handle tree}, host.Holds j handle tree ↔ host'.Holds j handle tree

/-- What two parses by one engine leave is alike. -/
theorem Host.Restored.alike {host host₁ host₂ : Host n} {i : Fin n} (h₁ : host.Restored host₁ i)
    (h₂ : host.Restored host₂ i) : host₁.Alike host₂ where
  counters j := by
    by_cases hj : j = i
    · rw [hj, h₁.counters, h₂.counters]
    · rw [h₁.others j hj, h₂.others j hj]
  holds_iff := h₁.holds_iff.trans h₂.holds_iff.symm

/-- A null node is decoded as the zero token, unless the limit has no room even for that. -/
theorem Decoder.outcome_of_isNull (limit : Option UInt64) {node : Node} (h : node.isNull = true) :
    ({ maxDepth := limit } : Decoder).outcome node =
      if limit = some 0 then .error
        { kind := .depthLimit, message := some "token tree exceeds max depth", depth := some 0,
          source := none }
      else .ok Token.zero := by
  have hzero : node.translate = Token.zero := by
    obtain ⟨shape, index, bitOffset, spare⟩ := node
    cases shape with
    | null => rw [Node.translate]
    | tagged | none | bytes | signed | unsigned | sequence => cases h
  have hdepth : Token.zero.depth = 1 := by rw [Token.zero, Token.depth]
  by_cases hlimit : limit = some 0
  · subst hlimit
    rw [if_pos rfl]
    exact outcome_of_deep rfl (by rw [hzero, hdepth]; decide)
  · rw [if_neg hlimit, outcome_of_depth_le, hzero]
    rintro l rfl
    have hl : l.toNat ≠ 0 := fun hl => hlimit (congrArg some (UInt64.toNat_inj.mp hl))
    rw [hzero, hdepth]
    omega

/-- **The routes agree.**  Let any calls have been made on the engines of a host, and let each route
have its own policies of placing blocks and its own script, all of which give the same answer for the
input.  Then, for every limit and for none:

* if the answer is a panic, every route ends with it, after a run that has counted;
* if it is a reply whose result cannot be laid out, the same goes for that failure;
* it can be laid out if no element array is too large and the policy of the run has room for the
  blocks;
* and if it can, or if there is none, all routes leave engines with the same counters and the same
  handles out as before, and report the same while they decode, at the level of debugging; the
  session has one event more, which comes last and closes the parse;
* if there is a root, every route gives what the decoder makes of the node; if there is none, the
  session has no match, and the others have no root and decode a null pointer. -/
theorem routes_agree (A : Allocators) (cs : List (Call n)) (i : Fin n) (limit : Option UInt64)
    (input : List UInt8) (policy : Route → Allocators) (script : Route → Script) (answer : Answer)
    (hanswer : ∀ r, script r input = answer) :
    let host := ((Host.start n).calls A cs).2
    let done := fun r : Route => (r.take (policy r) i limit (script r) input).run host
    (∀ text, answer = .panic text →
      ∀ r, done r = ⟨.error (.panic text), host.withEngine i Engine.countRun, []⟩) ∧
    ∀ reply, answer = .reply reply →
      (∀ r failure, reply.hasResult = true →
        host.heap.allocResult (host.allocator (policy r)) reply input.length = .error failure →
        done r = ⟨.error (.allocation failure), host.withEngine i Engine.countRun, []⟩) ∧
      (reply.node.SlotsFit →
        ∀ r, (host.allocator (policy r)).Serves (reply.node.blockSizes ++ [resultLayout.size])
            host.heap →
          reply.Fits (host.allocator (policy r)) host.heap input.length) ∧
      ((∀ r, reply.Fits (host.allocator (policy r)) host.heap input.length) →
        (∀ r, host.Restored (done r).state i) ∧
        (∀ r r', (done r).state.Alike (done r').state) ∧
        (∃ events closing outcome, (∀ event ∈ events, event.level = .debug) ∧
          closing.level = .trace ∧ (done .session).result = .ok { outcome } ∧
          Session.Closes input.length outcome closing ∧
          (done .session).events = events ++ [closing] ∧ (done .guard).events = events ∧
          (done .handle).events = events) ∧
        (reply.node.isNull = false →
          (done .session).result =
            .ok { outcome := ({ maxDepth := limit } : Decoder).outcome reply.node } ∧
          ∀ r, r ≠ .session → (done r).result = .ok
            { hasRoot := some true
              outcome := ({ maxDepth := limit } : Decoder).outcome reply.node }) ∧
        (reply.node.isNull = true →
          (done .session).result = .ok
            { outcome := .error
                { kind := .noMatch, message := some "engine produced no match", depth := none,
                  source := none } } ∧
          ∀ r, r ≠ .session → (done r).result = .ok
            { hasRoot := some false
              outcome := if limit = some 0 then .error
                  { kind := .depthLimit, message := some "token tree exceeds max depth",
                    depth := some 0, source := none }
                else .ok Token.zero })) := by
  intro host done
  have hsound : host.Sound := (Host.sound_start n).calls A cs
  refine ⟨fun text hs r => ?_, fun reply hs => ⟨fun r failure hreply ha => ?_,
    fun hfit r hroom => Reply.fits_of_serves hfit hroom, fun hfits => ?_⟩⟩
  · exact r.run_take_of_crash (Host.run_of_panic ((hanswer r).trans hs))
  · exact r.run_take_of_crash
      (Host.run_of_failure ((hanswer r).trans hs) (Reply.hasResult_iff.mp hreply) ha)
  have htaken : ∀ r : Route, r.Taken host i { maxDepth := limit } reply.node input.length (done r) :=
    fun r => r.taken_of_fits hsound ((hanswer r).trans hs) (hfits r)
  have hcloses := Session.closes_closingEvent input.length
    (Route.session.arrival { maxDepth := limit } reply.node).outcome
  refine ⟨fun r => (htaken r).restored, fun r r' => (htaken r).restored.alike (htaken r').restored,
    ⟨_, _, _, (htaken .session).debug, hcloses.level_eq, (htaken .session).result_eq, hcloses,
      (htaken .session).events_eq, ?_, ?_⟩,
    fun hnode => ⟨?_, fun r hr => ?_⟩, fun hnode => ⟨?_, fun r hr => ?_⟩⟩
  · rw [(htaken .guard).events_eq, Route.closing, List.append_nil]
  · rw [(htaken .handle).events_eq, Route.closing, List.append_nil]
  · rw [(htaken .session).result_eq, Route.arrival, hnode]
    rfl
  · rw [(htaken r).result_eq, Route.arrival_of_ne_session hr, hnode]
    rfl
  · rw [(htaken .session).result_eq, Route.arrival, hnode]
    rfl
  · rw [(htaken r).result_eq, Route.arrival_of_ne_session hr, hnode,
      Decoder.outcome_of_isNull limit hnode]
    rfl

/-- On the host with an echo out, all routes come to the token of many kinds and leave the same; and
with a result that has no root, under the limit 0, the session has no match and the guard an error of
the limit. -/
theorem routes_agree_variedScript :
    (∀ r r' : Route,
      ((r.take .ascending (0 : Fin 2) none variedScript [1, 2]).run echoingHost).state.Alike
        ((r'.take .ascending (0 : Fin 2) none variedScript [1, 2]).run echoingHost).state) ∧
    ((Route.session.take .ascending (0 : Fin 2) none variedScript [1, 2]).run echoingHost).result =
      .ok { outcome := .ok mixedToken } ∧
    ((Route.handle.take .ascending (0 : Fin 2) none variedScript [1, 2]).run echoingHost).result =
      .ok { hasRoot := some true, outcome := .ok mixedToken } ∧
    ((Route.session.take .ascending (0 : Fin 2) (some 0) variedScript [1]).run echoingHost).result =
      .ok
        { outcome := .error
            { kind := .noMatch, message := some "engine produced no match", depth := none,
              source := none } } ∧
    ((Route.guard.take .ascending (0 : Fin 2) (some 0) variedScript [1]).run echoingHost).result =
      .ok
        { hasRoot := some false
          outcome := .error
            { kind := .depthLimit, message := some "token tree exceeds max depth", depth := some 0,
              source := none } } := by
  have hnoMatch : Allocator.ascending.Serves [resultLayout.size] echoingHost.heap :=
    Allocator.ascending_serves (by decide +kernel)
  have hmatched : Allocator.ascending.Serves (mixedNode.blockSizes ++ [resultLayout.size])
      echoingHost.heap := Allocator.ascending_serves (by decide +kernel)
  have hmixed : mixedNode.translate = mixedToken := by decide +kernel
  have hhost : ((Host.start 2).calls .ascending
      [.run (1 : Fin 2) (GrammarRule.echo.grammar 0) [7]]).2 = echoingHost := rfl
  have hagree := routes_agree .ascending [.run (1 : Fin 2) (GrammarRule.echo.grammar 0) [7]] 0
  rw [hhost] at hagree
  obtain ⟨-, hroom, hends⟩ := (hagree none [1, 2] (fun _ => .ascending) (fun _ => variedScript) _
    fun _ => rfl).2 _ rfl
  obtain ⟨-, halike, -, hroot, -⟩ := hends (hroom slotsFit_mixedNode · hmatched)
  obtain ⟨hsession, hothers⟩ := hroot rfl
  obtain ⟨-, hroom', hends'⟩ := (hagree (some 0) [1] (fun _ => .ascending) (fun _ => variedScript) _
    fun _ => rfl).2 _ rfl
  obtain ⟨-, -, -, -, hrootless⟩ := hends' (hroom' trivial · hnoMatch)
  obtain ⟨hsession', hothers'⟩ := hrootless rfl
  rw [← hmixed]
  exact ⟨halike, hsession, hothers .handle nofun, hsession', hothers' .guard nofun⟩

end TokenImage
