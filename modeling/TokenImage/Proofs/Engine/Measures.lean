/-
# How many tokens a parse has

The tokens of a match are counted three times over.  The builder counts the records that it
allocates, the token that is read of the tree counts itself and what is below it, and a session
reports a count when it closes a parse.  The last two are the same.  The first is less by the null
nodes, for which nothing is allocated, but each of which is read as a zero token
(`Node.count_translate`).  Slots to spare are counted nowhere.

`decoded_count_eq` has this together with what the measures of a token say of any memory.
-/
import TokenImage.Proofs.Engine.EndToEnd
import TokenImage.Proofs.Graph.Measures
import TokenImage.Proofs.Tree.Spare

namespace TokenImage

/-! ## 1. The tokens of a node -/

/-- What a tag makes of a payload of zeros holds no tokens. -/
theorem Tag.count_zeroValue (tag : Tag) (byteOffset : Int64) (bitOffset : Int8) :
    Token.count ⟨byteOffset, bitOffset, tag.zeroValue⟩ = 1 := by
  rw [zeroValue]
  split_ifs with hbytes hsigned hunsigned hsequence
  · rw [Token.count]
  · rw [Token.count]
  · rw [Token.count]
  · rw [Token.count, Token.totalCount]
  · rw [Token.count]

namespace Node

mutual

/-- The number of null nodes in a node. -/
def nullCount : Node → Nat
  | ⟨.null, _, _, _⟩ => 1
  | ⟨.tagged _, _, _, _⟩ => 0
  | ⟨.none, _, _, _⟩ => 0
  | ⟨.bytes _, _, _, _⟩ => 0
  | ⟨.signed _, _, _, _⟩ => 0
  | ⟨.unsigned _, _, _, _⟩ => 0
  | ⟨.sequence items, _, _, _⟩ => allNullCount items

/-- The number of null nodes in the nodes of a list. -/
def allNullCount : List Node → Nat
  | [] => 0
  | n :: ns => nullCount n + allNullCount ns

end

mutual

/-- **The token of a node counts what the node describes, and its null nodes.** -/
theorem count_translate : ∀ n : Node, n.translate.count = n.tokenCount + n.nullCount
  | ⟨.null, _, _, _⟩ => by rw [translate, Token.zero, Token.count, tokenCount, nullCount]
  | ⟨.tagged tag, _, _, _⟩ => by
    rw [translate, tag.count_zeroValue, tokenCount_of_word rfl, nullCount]
  | ⟨.none, _, _, _⟩ => by
    rw [translate, Token.count, tokenCount_of_word rfl, nullCount]
  | ⟨.bytes _, _, _, _⟩ => by
    rw [translate, Token.count, nullCount, tokenCount] <;> simp
  | ⟨.signed _, _, _, _⟩ => by
    rw [translate, Token.count, tokenCount_of_word rfl, nullCount]
  | ⟨.unsigned _, _, _, _⟩ => by
    rw [translate, Token.count, tokenCount_of_word rfl, nullCount]
  | ⟨.sequence items, _, _, _⟩ => by
    rw [translate, Token.count, tokenCount, nullCount, totalCount_translateAll items]
    omega

/-- The same for the tokens of the nodes of a list. -/
theorem totalCount_translateAll : ∀ ns : List Node,
    Token.totalCount (translateAll ns) = allTokenCount ns + allNullCount ns
  | [] => by rw [translateAll, Token.totalCount, allTokenCount, allNullCount]
  | n :: ns => by
    rw [translateAll, Token.totalCount, allTokenCount, allNullCount, count_translate n,
      totalCount_translateAll ns]
    omega

end

mutual

/-- Slots to spare are counted nowhere. -/
theorem tokenCount_bare : ∀ n : Node, n.bare.tokenCount = n.tokenCount ∧ n.bare.nullCount = n.nullCount
  | ⟨.null, _, _, _⟩ => ⟨rfl, rfl⟩
  | ⟨.tagged _, _, _, _⟩ => ⟨rfl, rfl⟩
  | ⟨.none, _, _, _⟩ => ⟨rfl, rfl⟩
  | ⟨.bytes _, _, _, _⟩ => ⟨rfl, rfl⟩
  | ⟨.signed _, _, _, _⟩ => ⟨rfl, rfl⟩
  | ⟨.unsigned _, _, _, _⟩ => ⟨rfl, rfl⟩
  | ⟨.sequence items, _, _, _⟩ => by
    obtain ⟨htokens, hnulls⟩ := allTokenCount_bareAll items
    rw [bare, tokenCount, nullCount, tokenCount, nullCount, htokens, hnulls]
    exact ⟨rfl, rfl⟩

theorem allTokenCount_bareAll : ∀ ns : List Node,
    allTokenCount (bareAll ns) = allTokenCount ns ∧ allNullCount (bareAll ns) = allNullCount ns
  | [] => ⟨rfl, rfl⟩
  | n :: ns => by
    obtain ⟨htoken, hnull⟩ := tokenCount_bare n
    obtain ⟨htokens, hnulls⟩ := allTokenCount_bareAll ns
    rw [bareAll, allTokenCount, allNullCount, allTokenCount, allNullCount, htoken, hnull, htokens,
      hnulls]
    exact ⟨rfl, rfl⟩

end

end Node

/-! ## 2. The count that a session reports -/

/-- What comes with the message of a match is the event of a match. -/
theorem Event.eq_parseMatched {event : Event} (h : event.message = "parse matched") :
    ∃ inputLength tokens, event = .parseMatched inputLength tokens := by
  cases event with
  | parseMatched inputLength tokens => exact ⟨inputLength, tokens, rfl⟩
  | unsupportedTag | parseFailed | unownedRelease => exact absurd h (by simp [message])

namespace Session

variable {k : Nat}

/-- **The event of a match has the count of the token**, which is this one: no event with that message
has another, and a parse that gives a token ends with one, which closes it, after what is at the level
of debugging. -/
structure Counted (tokens inputLength : Nat)
    (done : Performed (Host k) (Except Error Token)) : Prop where
  fields_eq : ∀ event ∈ done.events, event.message = "parse matched" →
    event.fields = [("input_len", inputLength.repr), ("tokens", tokens.repr)]
  count_eq : ∀ x, done.result = .ok (.ok x) → x.count = tokens
  reported : ∀ x, done.result = .ok (.ok x) → ∃ before,
    done.events = before ++ [.parseMatched inputLength tokens] ∧
      Closes inputLength (.ok x) (.parseMatched inputLength tokens) ∧
      ∀ event ∈ before, event.level = .debug

variable {s : Session k} {mid : Host k} {handle root inputLength : Nat} {node : Node}
  {done : Performed (Host k) (Except Error Token)}

/-- A parse without a match reports no count. -/
theorem Unmatched.counted (h : Unmatched inputLength done) (tokens : Nat) :
    Counted tokens inputLength done := by
  have hnone : ∀ x, done.result ≠ .ok (.ok x) := fun x hx => by
    rw [h.result_eq] at hx
    cases hx
  refine ⟨fun event hevent hmessage => ?_, fun x hx => absurd hx (hnone x),
    fun x hx => absurd hx (hnone x)⟩
  obtain ⟨closing, hevents, hcloses⟩ := h.events_eq
  rw [hevents, List.mem_singleton] at hevent
  obtain ⟨-, hfailed, -⟩ := hcloses.failed _ rfl
  rw [hevent, hfailed] at hmessage
  exact absurd hmessage (by decide)

/-- A parse of a match reports the count of the node. -/
theorem Matched.counted (h : s.Matched mid handle root node inputLength done) :
    Counted (node.tokenCount + node.nullCount) inputLength done := by
  obtain ⟨-, -, hresult, ⟨closing, hevents, hcloses⟩, -, hdebug, -, houtcome⟩ := h
  rw [houtcome] at hresult hcloses
  generalize (s.decoder.decode mid.heap.memory root).events = before at hevents hdebug
  have hcount : ∀ x, s.decoder.outcome node = .ok x → x.count = node.tokenCount + node.nullCount :=
    fun x hx => by rw [Decoder.eq_translate_of_outcome hx, node.count_translate]
  have hok : ∀ x, done.result = .ok (.ok x) → s.decoder.outcome node = .ok x :=
    fun x hx => Except.ok.inj (hresult.symm.trans hx)
  refine ⟨fun event hevent hmessage => ?_, fun x hx => hcount x (hok x hx), fun x hx => ?_⟩
  · rw [hevents, List.mem_append, List.mem_singleton] at hevent
    rcases hevent with hbefore | rfl
    · -- the events of the decoder are at another level
      obtain ⟨length, tokens, rfl⟩ := Event.eq_parseMatched hmessage
      cases hdebug _ hbefore
    cases hx : s.decoder.outcome node with
    | error e =>
      obtain ⟨-, hfailed, -⟩ := hcloses.failed e hx
      rw [hfailed] at hmessage
      exact absurd hmessage (by decide)
    | ok x =>
      obtain ⟨-, -, hfields⟩ := hcloses.matched x hx
      rw [hfields, hcount x hx]
  · rw [hok x hx] at hcloses
    obtain ⟨hclosing, -, -⟩ := hcloses.matched x rfl
    rw [hcount x (hok x hx)] at hclosing
    subst hclosing
    exact ⟨before, hevents, hcloses, hdebug⟩

/-- **A parse whose reply is a match reports the count of its node**, or none. -/
theorem counted_of_matched {A : Allocators} {host : Host k} {script : Script} {input : List UInt8}
    (hs : script input = .reply (.matched node)) :
    Counted (node.tokenCount + node.nullCount) input.length ((s.parse A script input).run host) := by
  rcases Host.run_ends A s.engine script input host with ⟨c, mid, hrun⟩ | ⟨handle, mid, hrun⟩
  · rw [parse_of_crash hrun]
    exact ⟨nofun, nofun, nofun⟩
  -- a null node is no match for the session, and then nothing is counted
  cases hnode : node.isNull with
  | true => exact (unmatched_of_run hs hnode hrun).counted _
  | false =>
    obtain ⟨root, hmatched⟩ := matched_of_run (s := s) hs hnode hrun
    exact hmatched.counted

end Session

/-! ## 3. All counts -/

/-- **The measures of a token are those of what it was read from.**

* Every decoder without a limit gives a token for a well-formed graph; and for any memory, if any
  decoder gives a token, then that has as many tokens as there are paths of pointers below the root,
  and as many levels as there are pointers on the longest of these.
* A node whose element arrays are not too large has a tree, if there is room for its blocks.  The
  token of the tree counts the tokens of the tree and the null nodes; and a node that differs in
  slots to spare only has as many of both.
* A parse whose reply is a match of the node reports that count, if it gives a token.  It does give
  one, if the node is not null, can be laid out and is not too deep. -/
theorem decoded_count_eq :
    (∀ (m : Memory) (root : Nat),
      (m.WellFormed root →
        ∃ x, ∀ d : Decoder, d.maxDepth = none → (d.decode m root).result = .ok x) ∧
      ∀ (d : Decoder) (x : Token), (d.decode m root).result = .ok x → m.Measures root x) ∧
    (∀ (A : Allocator) (h : Heap) (n : Node),
      (n.SlotsFit → A.Serves n.blockSizes h → ∃ t h', ForeignTree.build A h n = .ok (t, h')) ∧
      ∀ t h', ForeignTree.build A h n = .ok (t, h') →
        (∃ x, ∀ d : Decoder, d.maxDepth = none → (d.decode h'.memory t.root).result = .ok x) ∧
        (∀ (d : Decoder) (x : Token), (d.decode h'.memory t.root).result = .ok x →
          x.count = t.tokenCount + n.nullCount) ∧
        t.tokenCount = n.tokenCount ∧
        ∀ k : Node, k.bare = n.bare → k.tokenCount = n.tokenCount ∧ k.nullCount = n.nullCount) ∧
    ∀ {k : Nat} (A : Allocators) (s : Session k) (host : Host k) (script : Script)
      (input : List UInt8) (n : Node), script input = .reply (.matched n) →
      Session.Counted (n.tokenCount + n.nullCount) input.length
        ((s.parse A script input).run host) ∧
      (n.isNull = false → n.SlotsFit →
        (host.allocator A).Serves (n.blockSizes ++ [resultLayout.size]) host.heap →
        (∀ limit, s.decoder.maxDepth = some limit → n.translate.depth ≤ limit.toNat) →
        ((s.parse A script input).run host).result = .ok (.ok n.translate)) := by
  refine ⟨fun m root => ⟨fun hwf => ?_, fun d x hx => ?_⟩, fun A h n =>
    ⟨ForeignTree.exists_build, fun t h' hbuild => ⟨?_, fun d x hx => ?_, ?_, fun k hk => ?_⟩⟩,
    fun {k} A s host script input n hs =>
      ⟨Session.counted_of_matched hs, fun hnode hfit hroom hdepth => ?_⟩⟩
  · obtain ⟨x, hx⟩ := Memory.wellFormed_iff_exists_tokenAt.mp hwf
    exact ⟨x, fun d hd => hx.decode_eq_ok hd⟩
  · exact (Decoder.decode_eq_ok_iff.mp hx).1.measures
  · refine ⟨n.translate, fun d hd => ?_⟩
    rw [ForeignTree.result_decode_build hbuild, Decoder.outcome_of_maxDepth_none hd]
  · rw [ForeignTree.result_decode_build hbuild] at hx
    rw [Decoder.eq_translate_of_outcome hx, n.count_translate, ForeignTree.tokenCount_build hbuild]
  · exact ForeignTree.tokenCount_build hbuild
  · obtain ⟨htokens, hnulls⟩ := k.tokenCount_bare
    rw [hk] at htokens hnulls
    obtain ⟨htokens', hnulls'⟩ := n.tokenCount_bare
    exact ⟨htokens.symm.trans htokens', hnulls.symm.trans hnulls'⟩
  · have hfits : Reply.Fits (.matched n) (host.allocator A) host.heap input.length :=
      Reply.fits_of_serves hfit hroom
    obtain ⟨handle, mid, hrun⟩ := hfits.exists_run hs s.engine
    obtain ⟨root, hmatched⟩ := Session.matched_of_run (s := s) hs hnode hrun
    rw [hmatched.result_eq, hmatched.outcome_eq]
    exact congrArg Except.ok (Decoder.outcome_of_depth_le hdepth)

/-- The shared memory has three paths, of which the longest has two pointers; the node of many kinds
has nine tokens and a null node, and a parse of it reports ten. -/
theorem decoded_count_mixedNode :
    (Memory.sharingMemory.Measures 16 Memory.sharingToken ∧ Memory.sharingToken.count = 4 ∧
      Memory.sharingToken.depth = 2) ∧
    (∃ (t : ForeignTree) (h' : Heap) (x : Token),
      ForeignTree.build .ascending .empty mixedNode = .ok (t, h') ∧
      (({} : Decoder).decode h'.memory t.root).result = .ok x ∧ t.tokenCount = 9 ∧
      x.count = 10) ∧
    ∃ before,
      (((Session.new (0 : Fin 1)).parse .ascending (fun _ => .reply (.matched mixedNode)) []).run
        (Host.start 1)).events = before ++ [.parseMatched 0 10] := by
  obtain ⟨hmemory, htree, hparse⟩ := decoded_count_eq
  have hsharing : (({} : Decoder).decode Memory.sharingMemory 16).result = .ok Memory.sharingToken :=
    Decoder.decode_eq_ok_iff.mpr ⟨Memory.tokenAt_sharingMemory, by decide +kernel⟩
  have htokens : mixedNode.tokenCount = 9 := by decide +kernel
  have hnulls : mixedNode.nullCount = 1 := by decide +kernel
  obtain ⟨hbuild, hcount⟩ := htree .ascending .empty mixedNode
  obtain ⟨t, h', ht⟩ := hbuild slotsFit_mixedNode (Allocator.ascending_serves (by decide +kernel))
  obtain ⟨⟨x, hx⟩, hcounted, htotal, -⟩ := hcount t h' ht
  have hx := hx {} rfl
  obtain ⟨hreport, hok⟩ := hparse .ascending (Session.new (0 : Fin 1)) (Host.start 1)
    (fun _ => .reply (.matched mixedNode)) [] mixedNode rfl
  have hresult := hok rfl slotsFit_mixedNode (Allocator.ascending_serves (by decide +kernel)) nofun
  obtain ⟨before, hevents, -⟩ := hreport.reported _ hresult
  rw [htokens, hnulls] at hevents
  refine ⟨⟨(hmemory _ _).2 {} _ hsharing, by decide +kernel, by decide +kernel⟩,
    ⟨t, h', x, ht, hx, by rw [htotal, htokens], by rw [hcounted {} x hx, htotal, htokens, hnulls]⟩,
    before, hevents⟩

/-- **A node may have no tree**, and so no token to count, where it has too many slots to spare: the
element array of this sequence over a null node would be larger than any block. -/
theorem decoded_count_ne_of_overflow :
    ¬ ∀ n : Node, ∃ (t : ForeignTree) (h' : Heap) (x : Token),
      ForeignTree.build .ascending .empty n = .ok (t, h') ∧
      (({} : Decoder).decode h'.memory t.root).result = .ok x ∧
      x.count = t.tokenCount + n.nullCount := by
  intro h
  obtain ⟨t, h', x, hbuild, -⟩ := h ((Node.sequence [{ shape := .null }]).withSpareCapacity (2 ^ 60))
  have hcrash : (ForeignTree.build .ascending .empty
      ((Node.sequence [{ shape := .null }]).withSpareCapacity (2 ^ 60))).isOk = false := by
    decide +kernel
  rw [hbuild] at hcrash
  exact nomatch hcrash

end TokenImage
