/-
# Laying out and reading back

A node that is laid out and decoded comes back as its translation, and nothing outside the tree is
looked at on the way.  The same goes for a node that comes in a reply: the engine lays it out, the
session decodes it while the result is held, and the parse gives the translation.

`decode_build` has all of it: for all policies of placing blocks, on every heap and every host, that
there is a result where there is room, and that the result is right wherever there is one.
-/
import TokenImage.Proofs.Decoder.WellFormed
import TokenImage.Proofs.Engine.Parses
import TokenImage.Proofs.Engine.Results

namespace TokenImage

/-- What stands for a token is decoded to it without a limit. -/
theorem Memory.Represents.decode {m : Memory} {blocks : List Extent} {p : Nat} {t : Token}
    (h : m.Represents blocks p t) {d : Decoder} (hd : d.maxDepth = none) :
    (d.decode m p).result = .ok t :=
  h.token_at.decode_eq_ok hd

namespace Session

variable {k : Nat} {A : Allocators} {s : Session k} {host : Host k} {script : Script}
  {input : List UInt8} {n : Node}

/-- **A parse of a match** gives the translation of the node, if the result is laid out. -/
theorem parse_of_match {handle : Nat} {tree : Option ForeignTree} {heap : Heap}
    (hd : s.decoder.maxDepth = none) (hn : n.shape ≠ .null)
    (hs : script input = .reply (.matched n))
    (ha : host.heap.allocResult (host.allocator A) (.matched n) input.length =
      .ok (handle, tree, heap)) :
    ((s.parse A script input).run host).result = .ok (.ok n.translate) := by
  obtain ⟨t, hroot, hrepresents, hne⟩ := Heap.allocResult_matched ha
  have hrun := Host.run_of_result (i := s.engine) hs nofun ha
  have hhandle : handle ≠ 0 := Nat.ne_of_gt (Heap.handle_pos ha)
  have hguard : (⟨s.engine, handle⟩ : Guard k).root? heap.memory = some t.root := by
    rw [Guard.root?, if_neg hhandle, hroot]
    simp [hne hn]
  rw [parse_of_handle hrun]
  simp only [outcomeAt, Host.heap_withEngine, hguard, hrepresents.decode hd]

/-- Such a parse gives nothing else; it may crash for want of room. -/
theorem eq_of_parse_match {outcome : Except Error Token} (hd : s.decoder.maxDepth = none)
    (hn : n.shape ≠ .null) (hs : script input = .reply (.matched n))
    (h : ((s.parse A script input).run host).result = .ok outcome) : outcome = .ok n.translate := by
  cases ha : host.heap.allocResult (host.allocator A) (.matched n) input.length with
  | error failure =>
    rw [parse_of_crash (Host.run_of_failure (i := s.engine) hs nofun ha)] at h
    cases h
  | ok result =>
    obtain ⟨handle, tree, heap⟩ := result
    rw [parse_of_match hd hn hs ha] at h
    exact (Except.ok.inj h).symm

end Session

/-- A parse without a session gives what a session without a limit gives, less its error. -/
theorem Host.result_parse {k : Nat} (A : Allocators) (i : Fin k) (script : Script)
    (input : List UInt8) (host : Host k) :
    ((Host.parse A i script input).run host).result =
      (((Session.new i).parse A script input).run host).result.map Except.toOption := by
  generalize hrun : ((Session.new i).parse A script input).run host = done
  obtain ⟨result, host', events⟩ := done
  cases result with
  | error c =>
    have := Action.run_bind_of_error (f := fun outcome => pure outcome.toOption) hrun
    rw [Host.parse, this]
    rfl
  | ok outcome =>
    rw [Host.parse_of_outcome hrun]
    rfl

/-- **Laying out a node and decoding it is translating it.**  For every node and all policies of
placing blocks, on every heap and every host:

* there is a tree, if no element array is too large and the policy has room for the blocks;
* wherever there is a tree, every read below its root lies in a block that it owns, and every
  decoder without a limit gives the translation of the node, in every memory that has the bytes of
  the tree;
* a parse whose script answers with a match of the node, which is not null, gives the translation,
  under the same conditions, with a session or without one. -/
theorem decode_build (n : Node) :
    (∀ (A : Allocator) (h : Heap),
      (n.SlotsFit → A.Serves n.blockSizes h → ∃ t h', ForeignTree.build A h n = .ok (t, h')) ∧
      ∀ t h', ForeignTree.build A h n = .ok (t, h') →
        h'.memory.ReadsWithin t.root t.extents ∧
        h'.memory.decode t.root = n.translate ∧
        ∀ (d : Decoder) (m : Memory), d.maxDepth = none →
          (∀ e ∈ t.extents, h'.memory.AgreeOn m e) → (d.decode m t.root).result = .ok n.translate) ∧
    ∀ (A : Allocators) {k : Nat} (s : Session k) (host : Host k) (script : Script)
      (input : List UInt8),
      s.decoder.maxDepth = none → n.shape ≠ .null → script input = .reply (.matched n) →
      (n.SlotsFit → (host.allocator A).Serves (n.blockSizes ++ [resultLayout.size]) host.heap →
        ((s.parse A script input).run host).result = .ok (.ok n.translate) ∧
        ((Host.parse A s.engine script input).run host).result = .ok (some n.translate)) ∧
      (∀ outcome, ((s.parse A script input).run host).result = .ok outcome →
        outcome = .ok n.translate) ∧
      ∀ outcome, ((Host.parse A s.engine script input).run host).result = .ok outcome →
        outcome = some n.translate := by
  refine ⟨fun A h => ⟨ForeignTree.exists_build, ?_⟩, ?_⟩
  · intro t h' hbuild
    obtain ⟨-, hrepresents⟩ := ForeignTree.build_spec hbuild
    have hown := hrepresents h'.memory fun e _ => .refl _ e
    refine ⟨hown.within, ?_, fun d m hd hm => (hrepresents m hm).decode hd⟩
    rw [Memory.decode, hown.decode rfl]
    rfl
  · intro A k s host script input hd hn hs
    have hsession : ∀ outcome, ((s.parse A script input).run host).result = .ok outcome →
        outcome = .ok n.translate := fun outcome h => Session.eq_of_parse_match hd hn hs h
    refine ⟨fun hfit hroom => ?_, hsession, fun outcome h => ?_⟩
    · obtain ⟨handle, tree, heap, ha⟩ := Heap.exists_allocResult hfit hroom
      refine ⟨Session.parse_of_match hd hn hs ha, ?_⟩
      rw [Host.result_parse, Session.parse_of_match rfl hn hs ha]
      rfl
    · rw [Host.result_parse] at h
      cases hparse : (((Session.new s.engine).parse A script input).run host).result with
      | error c =>
        rw [hparse] at h
        cases h
      | ok result =>
        rw [hparse] at h
        rw [← Except.ok.inj h, Session.eq_of_parse_match rfl hn hs hparse]
        rfl

/-! ## A node of many kinds -/

/-- A sequence with two spare slots over nodes of every kind: a null one that was placed, buffers
without bytes and with some, tags of their own that can be read and that cannot, numbers, and a
sequence without items. -/
def mixedNode : Node where
  shape := .sequence
    [{ shape := .null, index := 7, bitOffset := 3 }, { shape := .bytes [] },
      { shape := .bytes [104, 105], index := 1 }, { shape := .tagged 16, index := 2 },
      { shape := .tagged 99, bitOffset := 1 },
      { shape := .signed (-5), index := 0xffffffffffffffff },
      { shape := .unsigned 0x8000000000000000, bitOffset := -1 }, { shape := .none },
      { shape := .sequence [], spareCapacity := 1 }]
  index := 5
  spareCapacity := 2

/-- What it stands for. -/
def mixedToken : Token where
  byteOffset := 5
  value := .sequence
    [Token.zero, { value := .bytes [] }, { value := .bytes [104, 105], byteOffset := 1 },
      { value := .sequence [], byteOffset := 2 }, { value := .none, bitOffset := 1 },
      { value := .signed (-5), byteOffset := -1 },
      { value := .unsigned 0x8000000000000000, bitOffset := -1 }, { value := .none },
      { value := .sequence [] }]

theorem slotsFit_mixedNode : mixedNode.SlotsFit := by
  have hmax : 11 ≤ BuildSite.maxSlots := by decide
  have hone : 1 ≤ BuildSite.maxSlots := by decide
  simpa [mixedNode, Node.SlotsFit, Node.AllSlotsFit] using ⟨hone, hmax⟩

/-- It is laid out on the empty heap and decoded, and comes back from a parse. -/
theorem decode_mixedNode :
    (∃ t h', ForeignTree.build .ascending .empty mixedNode = .ok (t, h') ∧
      h'.memory.ReadsWithin t.root t.extents ∧ h'.memory.decode t.root = mixedToken) ∧
    ((Host.parse .ascending 0 (fun _ => .reply (.matched mixedNode)) []).run (.start 1)).result =
      .ok (some mixedToken) := by
  have htranslate : mixedNode.translate = mixedToken := by decide +kernel
  have hroom : Allocator.ascending.Serves mixedNode.blockSizes .empty :=
    Allocator.ascending_serves (by decide +kernel)
  have hroom' : Allocator.ascending.Serves (mixedNode.blockSizes ++ [resultLayout.size]) .empty :=
    Allocator.ascending_serves (by decide +kernel)
  obtain ⟨hbuild, hparse⟩ := decode_build mixedNode
  obtain ⟨t, h', ht⟩ := (hbuild .ascending .empty).1 slotsFit_mixedNode hroom
  obtain ⟨hwithin, hdecode, -⟩ := (hbuild .ascending .empty).2 t h' ht
  rw [htranslate] at hdecode
  refine ⟨⟨t, h', ht, hwithin, hdecode⟩, ?_⟩
  have hshape : mixedNode.shape ≠ .null := by simp [mixedNode]
  have hresult := (hparse .ascending (.new 0) (.start 1) (fun _ => .reply (.matched mixedNode)) [] rfl
    hshape rfl).1 slotsFit_mixedNode hroom'
  have hengine : (Session.new (0 : Fin 1)).engine = 0 := rfl
  rw [htranslate, hengine] at hresult
  exact hresult.2

end TokenImage
