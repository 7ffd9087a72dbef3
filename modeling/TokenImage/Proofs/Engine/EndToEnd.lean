/-
# Parses from end to end

The parse of a session is a run, a look at the result while it is held, and its release.
`Session.parse_spec` says all that comes of it, for every host that calls can reach: how it ends,
what it reports, and what it leaves.

It comes to nothing only if the run does, which then has counted and left no other trace: the script
panicked, or its reply could not be laid out.  Otherwise it ends with what the decoder makes of the
node of the reply, or without a match where there is no node.  The engine counts one run and one
release more, and all else is as it was (`Host.Restored`).
-/
import TokenImage.Proofs.Engine.Releases
import TokenImage.Proofs.Tree.RoundTrip

namespace TokenImage

/-! ## 1. What a parse leaves -/

namespace Host

variable {n : Nat} {A : Allocators} {host host' : Host n} {i : Fin n} {script : Script}
  {input : List UInt8} {handle : Nat}

/-- **A parse has come and gone**: its engine counts one run and one release more.  Nothing else has
become of any engine, and the results that are out are the same, byte by byte. -/
structure Restored (host host' : Host n) (i : Fin n) : Prop where
  counters : (host'.engine i).counters =
    { (host.engine i).counters with
      runs := (host.engine i).runs + 1, releases := (host.engine i).releases + 1 }
  others : ∀ j, j ≠ i → host'.engine j = host.engine j
  holds_iff : ∀ {j handle tree}, host'.Holds j handle tree ↔ host.Holds j handle tree
  keeps : ∀ {j handle tree}, host.Holds j handle tree → host.Keeps host' j handle tree

/-- The counters after a run that gave a handle and its release. -/
theorem counters_release_run (ho : host.Owned)
    (hrun : (Host.run A i script input).run host = ⟨.ok handle, host', []⟩) :
    (((Host.release i handle).run host').state.engine i).counters =
      { (host.engine i).counters with
        runs := (host.engine i).runs + 1, releases := (host.engine i).releases + 1 } := by
  rcases run_cases A i script input host with
    ⟨text, h⟩ | ⟨failure, h⟩ | h | ⟨reply, handle', tree, heap, ha, h⟩
  · exact nomatch h.symm.trans hrun
  · exact nomatch h.symm.trans hrun
  · obtain ⟨hhandle, rfl, -⟩ := Performed.mk.inj (h.symm.trans hrun)
    obtain rfl := Except.ok.inj hhandle
    rw [release_zero, engine_withEngine_self, engine_withEngine_self]
    rfl
  · obtain ⟨hhandle, rfl, -⟩ := Performed.mk.inj (h.symm.trans hrun)
    obtain rfl := Except.ok.inj hhandle
    have hholds : ({ host with heap }.withEngine i fun e => e.countRun.handOut handle' tree).Holds i
        handle' tree := by
      rw [holds_handOut fun e => rfl, if_pos ⟨rfl, rfl⟩]
    have hone : ((host.engine i).countRun.handOut handle' tree).outstanding =
        (host.engine i).outstanding + 1 := Engine.outstanding_handOut (ho.not_isLive_new ha i) tree
    rw [counters_release_of_live (Nat.ne_of_gt (Heap.handle_pos ha)) (isLive_iff.mpr ⟨tree, hholds⟩),
      engine_withEngine_self, engine_withHeap]
    simp only [hone, Nat.add_sub_cancel]
    rfl

/-- **A run that gave a handle, and its release, leave the host as it was.** -/
theorem restored_of_run (h : host.Sound)
    (hrun : (Host.run A i script input).run host = ⟨.ok handle, host', []⟩) :
    host.Restored ((Host.release i handle).run host').state i := by
  have hcalls : (host.calls A (host.parseCalls A i script input)).2 =
      ((Host.release i handle).run host').state := by
    simp only [parseCalls, hrun, calls, call]
  have hkeeps : ∀ {j handle' tree}, host.Holds j handle' tree →
      host.Keeps ((Host.release i handle).run host').state j handle' tree := by
    intro j handle' tree hholds
    rw [← hcalls]
    exact keeps_parseCalls h A i script input hholds
  refine ⟨counters_release_run h.owned hrun, fun j hj => ?_, fun {j handle' tree} => ?_, hkeeps⟩
  · have hrunOther : ((Host.run A i script input).run host).state.engine j = host.engine j :=
      engines_run_of_ne (Ne.symm hj) script input
    rw [hrun] at hrunOther
    exact (engines_release_of_ne (Ne.symm hj) handle).trans hrunOther
  · refine ⟨fun hholds => ?_, fun hholds => (hkeeps hholds).holds⟩
    have hafter : (host.calls A (host.parseCalls A i script input)).2.IsLive j handle' := by
      rw [hcalls]
      exact isLive_iff.mpr ⟨tree, hholds⟩
    obtain ⟨tree', hold⟩ := isLive_iff.mp ((isLive_parseCalls h.owned).mp hafter)
    obtain rfl : tree' = tree := Option.some.inj ((hkeeps hold).holds.symm.trans hholds)
    exact hold

end Host

/-! ## 2. How a parse ends -/

/-- What a decoder makes of a node: its translation, unless that is deeper than the limit. -/
def Decoder.outcome (d : Decoder) (n : Node) : Except Error Token :=
  match d.maxDepth with
  | none => .ok n.translate
  | some limit =>
    if n.translate.depth ≤ limit.toNat then .ok n.translate
    else .error
      { kind := .depthLimit, message := some "token tree exceeds max depth", depth := some limit,
        source := none }

theorem Decoder.outcome_of_deep {d : Decoder} {n : Node} {limit : UInt64}
    (hlimit : d.maxDepth = some limit) (hdeep : limit.toNat < n.translate.depth) :
    d.outcome n = .error
      { kind := .depthLimit, message := some "token tree exceeds max depth", depth := some limit,
        source := none } := by
  rw [outcome, hlimit]
  exact if_neg (Nat.not_le.mpr hdeep)

theorem Decoder.outcome_of_depth_le {d : Decoder} {n : Node}
    (h : ∀ limit, d.maxDepth = some limit → n.translate.depth ≤ limit.toNat) :
    d.outcome n = .ok n.translate := by
  rw [outcome]
  cases hlimit : d.maxDepth with
  | none => rfl
  | some limit => exact if_pos (h limit hlimit)

theorem Decoder.outcome_of_maxDepth_none {d : Decoder} (hd : d.maxDepth = none) (n : Node) :
    d.outcome n = .ok n.translate :=
  outcome_of_depth_le fun _ hlimit => nomatch hd.symm.trans hlimit

/-- A decoder that makes a token of a node makes the translation. -/
theorem Decoder.eq_translate_of_outcome {d : Decoder} {n : Node} {x : Token}
    (h : d.outcome n = .ok x) : x = n.translate := by
  rw [outcome] at h
  split at h
  · exact (Except.ok.inj h).symm
  · split_ifs at h
    exact (Except.ok.inj h).symm

/-- A decoder that comes to a node ends with what it makes of it. -/
theorem Memory.Laid.result_decode {m : Memory} {blocks : List Extent} {p : Nat} {n : Node}
    (h : m.Laid blocks p n) (d : Decoder) : (d.decode m p).result = d.outcome n := by
  rw [Decoder.outcome]
  cases hlimit : d.maxDepth with
  | none => exact (represents_of_laid n h).decode hlimit
  | some limit =>
    have hroom : d.room = limit.toNat := by rw [Decoder.room, hlimit]
    have hresult := n.result_read limit.toNat
    rw [h.decode, Decoder.readNode, Traced.mapError, hroom, hresult]
    dsimp only
    split
    · rfl
    · change Except.error (d.haltError .tooDeep) = _
      rw [Decoder.haltError, hlimit]
      rfl

/-- So it does for the tree of a node. -/
theorem ForeignTree.result_decode_build {A : Allocator} {h h' : Heap} {n : Node} {t : ForeignTree}
    (hbuild : build A h n = .ok (t, h')) (d : Decoder) :
    (d.decode h'.memory t.root).result = d.outcome n :=
  (laid_build hbuild).2.result_decode d

namespace Session

variable {n : Nat}

/-- **What closes a parse** is one event for tracing: that the parse matched, with the length of the
input and the number of tokens, or that it failed, with the length and the line of the error. -/
structure Closes (inputLength : Nat) (outcome : Except Error Token) (event : Event) : Prop where
  level_eq : event.level = .trace
  matched : ∀ t, outcome = .ok t → event = .parseMatched inputLength t.count ∧
    event.message = "parse matched" ∧
    event.fields = [("input_len", inputLength.repr), ("tokens", t.count.repr)]
  failed : ∀ e, outcome = .error e → event = .parseFailed inputLength e ∧
    event.message = "parse failed" ∧
    event.fields = [("input_len", inputLength.repr), ("error", e.display)]

/-- What a session reports at the end of a parse closes it. -/
theorem closes_closingEvent (inputLength : Nat) (outcome : Except Error Token) :
    Closes inputLength outcome (closingEvent inputLength outcome) := by
  cases outcome with
  | error e =>
    refine ⟨rfl, nofun, fun e' he => ?_⟩
    obtain rfl := Except.error.inj he
    exact ⟨rfl, rfl, rfl⟩
  | ok t =>
    refine ⟨rfl, fun t' ht => ?_, nofun⟩
    obtain rfl := Except.ok.inj ht
    exact ⟨rfl, rfl, rfl⟩

/-- **A parse of a match**: the decoder was at the root while the handle was out, the parse ended with
what the decoder gave, and reported what the decoder did and then how the parse ended. -/
structure Matched (s : Session n) (mid : Host n) (handle root : Nat) (node : Node)
    (inputLength : Nat) (done : Performed (Host n) (Except Error Token)) : Prop where
  isLive : mid.IsLive s.engine handle
  root_eq : (⟨s.engine, handle⟩ : Guard n).root? mid.heap.memory = some root
  result_eq : done.result = .ok (s.decoder.decode mid.heap.memory root).result
  events_eq : ∃ closing,
    done.events = (s.decoder.decode mid.heap.memory root).events ++ [closing] ∧
    Closes inputLength (s.decoder.decode mid.heap.memory root).result closing
  state_eq : done.state = ((Host.release s.engine handle).run mid).state
  /-- All that the decoder reports is at the level of debugging. -/
  debug : ∀ event ∈ (s.decoder.decode mid.heap.memory root).events, event.level = .debug
  /-- The decoder gives the same for the tree of the node, wherever that is laid out. -/
  elsewhere : ∀ (B : Allocator) (h : Heap) (t : ForeignTree) (h' : Heap),
    ForeignTree.build B h node = .ok (t, h') →
      s.decoder.decode h'.memory t.root = s.decoder.decode mid.heap.memory root
  /-- It gives the translation of the node, or the error of the limit if that is too deep. -/
  outcome_eq : (s.decoder.decode mid.heap.memory root).result = s.decoder.outcome node

/-- **A parse without a match**: it ended with the one error for that, and reported that alone. -/
structure Unmatched (inputLength : Nat) (done : Performed (Host n) (Except Error Token)) : Prop where
  result_eq : done.result = .ok (.error
    { kind := .noMatch, message := some "engine produced no match", depth := none, source := none })
  events_eq : ∃ closing, done.events = [closing] ∧ Closes inputLength (.error
    { kind := .noMatch, message := some "engine produced no match", depth := none, source := none })
    closing

section Run

variable {A : Allocators} {host mid : Host n} {s : Session n} {script : Script} {input : List UInt8}
  {handle : Nat} {reply : Reply}

/-- What a parse does once its run has given a handle. -/
theorem parse_of_run
    (hrun : (Host.run A s.engine script input).run host = ⟨.ok handle, mid, []⟩) :
    (s.parse A script input).run host =
      ⟨.ok (s.outcomeAt mid.heap.memory handle).2,
        ((Host.release s.engine handle).run mid).state,
        (s.outcomeAt mid.heap.memory handle).1 ++
          [closingEvent input.length (s.outcomeAt mid.heap.memory handle).2]⟩ := by
  have hsilent := congrArg Performed.events (Host.release_of_run hrun)
  rw [parse_of_handle hrun, hsilent, List.append_nil, List.nil_append]

/-- Without a node the parse has no match. -/
theorem unmatched_of_run (hs : script input = .reply reply) (hnode : reply.node.isNull = true)
    (hrun : (Host.run A s.engine script input).run host = ⟨.ok handle, mid, []⟩) :
    Unmatched input.length ((s.parse A script input).run host) := by
  rcases (Host.shows_of_run hs hrun).root?_cases with ⟨-, hroot⟩ | ⟨hnot, -⟩
  · rw [parse_of_run hrun]
    simp only [outcomeAt, hroot]
    exact ⟨rfl, _, rfl, closes_closingEvent _ _⟩
  · cases hnode.symm.trans hnot

/-- **With a node the parse gives what the decoder makes of it.** -/
theorem matched_of_run (hs : script input = .reply reply) (hnode : reply.node.isNull = false)
    (hrun : (Host.run A s.engine script input).run host = ⟨.ok handle, mid, []⟩) :
    ∃ root, s.Matched mid handle root reply.node input.length
      ((s.parse A script input).run host) := by
  have hshows := Host.shows_of_run hs hrun
  rcases hshows.root?_cases with ⟨hnull, -⟩ | ⟨-, root, blocks, hroot, hlaid⟩
  · cases hnull.symm.trans hnode
  have h0 : handle ≠ 0 := by
    rintro rfl
    rw [Guard.root?, if_pos rfl] at hroot
    cases hroot
  refine ⟨root, hshows.isLive h0, hroot, ?_, ?_, ?_, Decoder.decode_events, ?_,
    hlaid.result_decode s.decoder⟩
  · rw [parse_of_run hrun]
    simp only [outcomeAt, hroot]
  · rw [parse_of_run hrun]
    simp only [outcomeAt, hroot]
    exact ⟨_, rfl, closes_closingEvent _ _⟩
  · rw [parse_of_run hrun]
  · intro B h t h' hbuild
    rw [(ForeignTree.laid_build hbuild).2.decode, hlaid.decode]

end Run

end Session

/-! ## 3. When there is a result -/

namespace Reply

variable {A : Allocator} {h : Heap} {reply : Reply} {inputLength : Nat}

/-- The result of a reply can be laid out; without a result there is nothing to lay out. -/
def Fits (reply : Reply) (A : Allocator) (h : Heap) (inputLength : Nat) : Prop :=
  reply.hasResult = true → ∃ result, h.allocResult A reply inputLength = .ok result

/-- It can where no element array is too large and the policy has room for the blocks. -/
theorem fits_of_serves (hfit : reply.node.SlotsFit)
    (hroom : A.Serves (reply.node.blockSizes ++ [resultLayout.size]) h) :
    reply.Fits A h inputLength := by
  intro hreply
  cases reply with
  | matched node =>
    obtain ⟨handle, tree, h', ha⟩ := Heap.exists_allocResult hfit hroom
    exact ⟨_, ha⟩
  | noMatch =>
    obtain ⟨e, h', hrecord, -⟩ := Allocator.Serves.allocRecord
      (ResultRecord.fields ⟨0, inputBits inputLength⟩) (by decide) hroom
    refine ⟨(e.base, none, h'), ?_⟩
    simp only [Heap.allocResult, Heap.allocTree, AllocationFailure.bind_eq_ok_iff,
      AllocationFailure.ofRoom_eq_ok_iff, Prod.exists]
    exact ⟨_, _, rfl, _, _, hrecord, rfl⟩
  | nullResult => cases hreply

/-- **Then a run gives a handle.** -/
theorem Fits.exists_run {n : Nat} {A : Allocators} {host : Host n} {script : Script}
    {input : List UInt8} (hfits : reply.Fits (host.allocator A) host.heap input.length)
    (hs : script input = .reply reply) (i : Fin n) :
    ∃ handle mid, (Host.run A i script input).run host = ⟨.ok handle, mid, []⟩ := by
  by_cases hnull : reply = .nullResult
  · subst hnull
    exact ⟨_, _, Host.run_of_nullResult hs⟩
  obtain ⟨⟨handle, tree, heap⟩, ha⟩ := hfits (Reply.hasResult_iff.mpr hnull)
  exact ⟨_, _, Host.run_of_result hs hnull ha⟩

end Reply

/-! ## 4. All parses -/

namespace Session

/-- A session shows the options that it was made with. -/
theorem options_withOptions {n : Nat} (i : Fin n) (options : SessionOptions) :
    (withOptions i options).options = options := by
  obtain ⟨maxDepth⟩ := options
  cases maxDepth with
  | none => rfl
  | some limit => rfl

/-- **A parse from end to end.**  Let any calls have been made on the engines of a host, and let a
session of one of them have any options, which it goes on to show.  Then for every script and input:

* if the script panics, the run counts, and nothing else has happened;
* if the result of its reply cannot be laid out, it is the same;
* it can be laid out if no element array is too large and the policy of the run has room for the
  blocks;
* if it can, or if there is none to be laid out, the engine counts one run and one release more, and
  all else is as it was;
* then, if the reply has no node, the parse has no match, whatever the limit, and a parse without a
  session gives nothing;
* and if it has one, the parse gives what the session's decoder gives for the tree, which it reads
  while the handle is out, and a parse without a session gives the translation of the node. -/
theorem parse_spec {n : Nat} (A : Allocators) (cs : List (Call n)) (i : Fin n)
    (options : SessionOptions) (script : Script) (input : List UInt8) :
    let host := ((Host.start n).calls A cs).2
    let s : Session n := .withOptions i options
    let done := (s.parse A script input).run host
    s.options = options ∧
    (∀ text, script input = .panic text →
      done = ⟨.error (.panic text), host.withEngine i Engine.countRun, []⟩) ∧
    ∀ reply, script input = .reply reply →
      (∀ failure, reply.hasResult = true →
        host.heap.allocResult (host.allocator A) reply input.length = .error failure →
        done = ⟨.error (.allocation failure), host.withEngine i Engine.countRun, []⟩) ∧
      (reply.node.SlotsFit →
        (host.allocator A).Serves (reply.node.blockSizes ++ [resultLayout.size]) host.heap →
        reply.Fits (host.allocator A) host.heap input.length) ∧
      (reply.Fits (host.allocator A) host.heap input.length →
        host.Restored done.state i ∧
        (reply.node.isNull = true →
          Unmatched input.length done ∧
            ((Host.parse A i script input).run host).result = .ok none) ∧
        (reply.node.isNull = false →
          (∃ handle mid root, (Host.run A i script input).run host = ⟨.ok handle, mid, []⟩ ∧
            s.Matched mid handle root reply.node input.length done) ∧
          ((Host.parse A i script input).run host).result = .ok (some reply.node.translate))) := by
  intro host s done
  have hengine : s.engine = i := rfl
  refine ⟨?_, fun text hs => ?_, fun reply hs => ⟨fun failure hreply ha => ?_,
    Reply.fits_of_serves, fun hfits => ?_⟩⟩
  · exact options_withOptions i options
  · exact parse_of_crash (Host.run_of_panic hs)
  · exact parse_of_crash (Host.run_of_failure hs (Reply.hasResult_iff.mp hreply) ha)
  have hsound : host.Sound := (Host.sound_start n).calls A cs
  obtain ⟨handle, mid, hrun⟩ := hfits.exists_run hs i
  refine ⟨?_, fun hnode => ⟨unmatched_of_run hs hnode hrun, ?_⟩, fun hnode => ⟨?_, ?_⟩⟩
  · have hstate : done.state = ((Host.release i handle).run mid).state :=
      congrArg Performed.state (parse_of_run (s := s) hrun)
    rw [hstate]
    exact Host.restored_of_run hsound hrun
  · rw [Host.result_parse, (unmatched_of_run (s := .new i) hs hnode hrun).result_eq]
    rfl
  · obtain ⟨root, hmatched⟩ := matched_of_run (s := s) hs hnode hrun
    exact ⟨handle, mid, root, hrun, hmatched⟩
  · obtain ⟨root, hmatched⟩ := matched_of_run (s := .new i) hs hnode hrun
    rw [Host.result_parse, hmatched.result_eq, hmatched.outcome_eq]
    rfl

/-- A script that panics on no bytes, has no match for one byte, and else a node of many kinds. -/
def variedScript : Script
  | [] => .panic "script panic"
  | [_] => .reply .noMatch
  | _ => .reply (.matched mixedNode)

/-- A host of two engines, of which the second has an echo out. -/
def echoingHost : Host 2 :=
  ((Host.start 2).calls .ascending [.run 1 (GrammarRule.echo.grammar 0) [7]]).2

/-- On it the script is met in its four ways: with a panic, without a match under the limit 0, with
its token, and with the error of the limit 1.  Those that have an end report it last. -/
theorem parse_variedScript :
    let parsed := fun (options : SessionOptions) (input : List UInt8) =>
      ((Session.withOptions (0 : Fin 2) options).parse .ascending variedScript input).run echoingHost
    (parsed {} []).result = .error (.panic "script panic") ∧
    ((parsed { maxDepth := some 0 } [1]).result = .ok (.error
        { kind := .noMatch, message := some "engine produced no match", depth := none,
          source := none }) ∧
      (parsed { maxDepth := some 0 } [1]).events = [.parseFailed 1
        { kind := .noMatch, message := some "engine produced no match", depth := none,
          source := none }]) ∧
    ((parsed {} [1, 2]).result = .ok (.ok mixedToken) ∧
      ∃ before, (parsed {} [1, 2]).events = before ++ [.parseMatched 2 10]) ∧
    ((parsed { maxDepth := some 1 } [1, 2]).result = .ok (.error
        { kind := .depthLimit, message := some "token tree exceeds max depth", depth := some 1,
          source := none }) ∧
      ∃ before, (parsed { maxDepth := some 1 } [1, 2]).events = before ++ [.parseFailed 2
        { kind := .depthLimit, message := some "token tree exceeds max depth", depth := some 1,
          source := none }]) := by
  intro parsed
  have hnoMatch : Allocator.ascending.Serves [resultLayout.size] echoingHost.heap :=
    Allocator.ascending_serves (by decide +kernel)
  have hmatched : Allocator.ascending.Serves (mixedNode.blockSizes ++ [resultLayout.size])
      echoingHost.heap := Allocator.ascending_serves (by decide +kernel)
  have hmixed : mixedNode.translate = mixedToken := by decide +kernel
  have hcount : mixedToken.count = 10 := by decide +kernel
  have hhost : ((Host.start 2).calls .ascending
      [.run (1 : Fin 2) (GrammarRule.echo.grammar 0) [7]]).2 = echoingHost := rfl
  have hspec := parse_spec .ascending [.run (1 : Fin 2) (GrammarRule.echo.grammar 0) [7]] 0
  rw [hhost] at hspec
  refine ⟨?_, ?_, ?_, ?_⟩
  · have hpanic := (hspec {} variedScript []).2.1 _ rfl
    exact congrArg Performed.result hpanic
  · obtain ⟨-, hroom, hends⟩ := (hspec { maxDepth := some 0 } variedScript [1]).2.2 _ rfl
    obtain ⟨⟨hresult, closing, hevents, hcloses⟩, -⟩ := (hends (hroom trivial hnoMatch)).2.1 rfl
    obtain ⟨rfl, -, -⟩ := hcloses.failed _ rfl
    exact ⟨hresult, hevents⟩
  · obtain ⟨-, hroom, hends⟩ := (hspec {} variedScript [1, 2]).2.2 _ rfl
    obtain ⟨⟨_, _, _, -, hdone⟩, -⟩ := (hends (hroom slotsFit_mixedNode hmatched)).2.2 rfl
    obtain ⟨closing, hevents, hcloses⟩ := hdone.events_eq
    have houtcome := hdone.outcome_eq.trans (Decoder.outcome_of_maxDepth_none rfl mixedNode)
    obtain ⟨rfl, -, -⟩ := hcloses.matched _ houtcome
    rw [hmixed] at houtcome hevents
    rw [hcount] at hevents
    exact ⟨hdone.result_eq.trans (congrArg Except.ok houtcome), _, hevents⟩
  · obtain ⟨-, hroom, hends⟩ := (hspec { maxDepth := some 1 } variedScript [1, 2]).2.2 _ rfl
    obtain ⟨⟨_, _, _, -, hdone⟩, -⟩ := (hends (hroom slotsFit_mixedNode hmatched)).2.2 rfl
    obtain ⟨closing, hevents, hcloses⟩ := hdone.events_eq
    have hdeep : (1 : UInt64).toNat < mixedNode.translate.depth := by decide +kernel
    have houtcome := hdone.outcome_eq.trans (Decoder.outcome_of_deep rfl hdeep)
    obtain ⟨rfl, -, -⟩ := hcloses.failed _ houtcome
    exact ⟨hdone.result_eq.trans (congrArg Except.ok houtcome), _, hevents⟩

/-- **A parse of a match may come to nothing**, where the node cannot be laid out: the element array of
this sequence would be larger than any block. -/
theorem parse_crashes_of_overflow :
    ¬ ∀ (A : Allocators) (cs : List (Call 1)) (i : Fin 1) (options : SessionOptions)
      (script : Script) (input : List UInt8) (node : Node),
      node.isNull = false → script input = .reply (.matched node) →
      (((Session.withOptions i options).parse A script input).run
        ((Host.start 1).calls A cs).2).result =
        .ok ((Session.withOptions i options).decoder.outcome node) := by
  intro h
  have hresult := h .ascending [] 0 {}
    (fun _ => .reply (.matched ((Node.sequence []).withSpareCapacity (2 ^ 60)))) [] _ rfl rfl
  have hcrash : (((Session.withOptions (0 : Fin 1) {}).parse .ascending
      (fun _ => .reply (.matched ((Node.sequence []).withSpareCapacity (2 ^ 60)))) []).run
      ((Host.start 1).calls .ascending []).2).result.isOk = false := by decide +kernel
  rw [hresult] at hcrash
  exact nomatch hcrash

end Session

end TokenImage
