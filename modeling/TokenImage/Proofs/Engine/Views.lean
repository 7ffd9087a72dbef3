/-
# What results show

All that a client can see of a result is in its record and in the tree that the record leads to, and
addresses show nowhere in it.  So a reply on an input shows the same wherever its result is laid out
and whoever looks at it: `Reply.view` says what, without a memory.

* `Memory.ResultAt` says that the result of a reply lies in memory, and `Memory.ResultAt.transfer`
  that it does for as long as its blocks keep their bytes.
* `Host.Shows` says that a handle stands for a reply; `Host.shows_of_run` is how it comes about and
  `Host.Shows.keep` how it goes on.
* `Host.Shows.view` says what its guard shows then.
-/
import TokenImage.Proofs.Engine.Frame
import TokenImage.Proofs.Tree.Reading
import TokenImage.Scenario.Step
import Mathlib.Algebra.Ring.Int.Defs

namespace TokenImage

/-! ## 1. Decoding a node -/

/-- What a decoder makes of a node, without a memory. -/
def Decoder.readNode (d : Decoder) (n : Node) : Traced Error Token :=
  (n.read d.room).mapError d.haltError

/-- Whether a node is no token at all. -/
def Node.isNull : Node → Bool
  | ⟨.null, _, _, _⟩ => true
  | _ => false

/-- What a reading of a node gives under a limit, or without one, with the events on the way. -/
def Node.reading (n : Node) (limit : Option UInt64) : List Event × Memory.Reading :=
  let first := ({ maxDepth := limit } : Decoder).readNode n
  let again := (({} : Decoder).readNode n).result.toOption.getD Token.zero
  (first.events, ⟨first.result, limit.elim (some (first.result.toOption == some again)) fun _ => none⟩)

namespace Memory

variable {m m' : Memory} {blocks : List Extent} {p : Nat} {n : Node}

/-- **A decoder makes of a node what it makes of it without a memory.** -/
theorem Laid.decode (h : m.Laid blocks p n) (d : Decoder) : d.decode m p = d.readNode n := by
  rw [Decoder.decode, walk_of_laid n h, Decoder.readNode]

theorem Laid.reading (h : m.Laid blocks p n) (limit : Option UInt64) :
    m.reading p limit = n.reading limit := by
  rw [Memory.reading, Node.reading, Memory.decode, h.decode, h.decode]

/-- Only a null node is at the null pointer. -/
theorem Laid.eq_zero_iff (h : m.Laid blocks p n) : p = 0 ↔ n.isNull = true := by
  cases h with
  | null => exact iff_of_true rfl rfl
  | tagged h | none h | bytes h | signed h | unsigned h | sequence h =>
    exact iff_of_false (Nat.ne_of_gt h.block.addressable.base_pos) Bool.false_ne_true

end Memory

/-! ## 2. Replies -/

namespace Reply

/-- The node of a reply; without a match it is a null one. -/
def node : Reply → Node
  | .matched node => node
  | .noMatch => { shape := .null }
  | .nullResult => { shape := .null }

/-- Whether there is a result. -/
def hasResult : Reply → Bool
  | .nullResult => false
  | _ => true

theorem hasResult_iff {reply : Reply} : reply.hasResult = true ↔ reply ≠ .nullResult := by
  cases reply with
  | matched | noMatch => exact iff_of_true rfl nofun
  | nullResult => exact iff_of_false Bool.false_ne_true fun hne => hne rfl

end Reply

/-- **What a guard shows**: its facts and, for each limit and for none, a reading of its tree. -/
structure GuardView where
  facts : GuardFacts
  reading : Option UInt64 → List Event × Memory.Reading

/-- What a guard shows in a memory; a missing root is read as a null pointer. -/
def Guard.view {n : Nat} (g : Guard n) (m : Memory) : GuardView where
  facts := ⟨g.isNull, (g.root? m).isSome, g.bitLength? m⟩
  reading limit := m.reading ((g.root? m).getD 0) limit

/-- **What a reply shows** on an input of so many bytes. -/
def Reply.view (reply : Reply) (inputLength : Nat) : GuardView where
  facts := ⟨!reply.hasResult, !reply.node.isNull,
    if reply.hasResult then some (inputBits inputLength) else none⟩
  reading := reply.node.reading

/-- A result has the bits of its input, as far as a signed number holds them. -/
theorem toInt_inputBits (length : Nat) :
    (inputBits length).toInt = min (8 * length : Int) (2 ^ 63 - 1) := by
  have hle : min (8 * length) 0x7fffffffffffffff < 2 ^ 63 := by omega
  rw [inputBits, Int64.toInt_ofNat_of_lt hle]
  omega

/-! ## 3. Results in memory -/

namespace Memory

variable {m m' : Memory} {handle inputLength : Nat} {tree : Option ForeignTree} {reply : Reply}

/-- **The result of a reply** lies in memory: its record, which has the bits of the input and leads to
the root, and the tree of its node. -/
structure ResultAt (m : Memory) (handle : Nat) (tree : Option ForeignTree) (reply : Reply)
    (inputLength : Nat) : Prop where
  block : HasBlock (resultBlocks handle tree) ⟨handle, resultLayout.size⟩
  fields : m.FieldsAt handle
    (ResultRecord.fields ⟨tree.elim 0 ForeignTree.root, inputBits inputLength⟩)
  laid : m.Laid (resultBlocks handle tree) (tree.elim 0 ForeignTree.root) reply.node

/-- A result stays where its blocks keep their bytes. -/
theorem ResultAt.transfer (h : m.ResultAt handle tree reply inputLength)
    (hagree : ∀ e ∈ resultBlocks handle tree, m.AgreeOn m' e) :
    m'.ResultAt handle tree reply inputLength :=
  ⟨h.block, h.fields.of_agreeOn (ResultRecord.fields_fit _) (hagree _ h.block.mem),
    laid_transfer (List.Subset.refl _) hagree _ h.laid⟩

namespace ResultAt

theorem handle_ne_zero (h : m.ResultAt handle tree reply inputLength) : handle ≠ 0 :=
  Nat.ne_of_gt h.block.addressable.base_pos

theorem root_eq (h : m.ResultAt handle tree reply inputLength) :
    m.resultRoot handle = some (tree.elim 0 ForeignTree.root) := by
  have hroot := h.fields (0, littleEndian 8 (tree.elim 0 ForeignTree.root)) List.mem_cons_self
  exact loadPointer_eq_some_iff.mpr (hroot.numberAt (represents_of_laid _ h.laid).pointer_lt)

theorem bitLength_eq (h : m.ResultAt handle tree reply inputLength) :
    m.resultBitLength handle = some (inputBits inputLength) := by
  have hbits := h.fields (8, littleEndian 8 (inputBits inputLength).toUInt64.toNat) (by
    simp [ResultRecord.fields, resultLayout])
  have hvalue := toInt_toInt64 (inputBits inputLength).toUInt64
  rw [Int64.toInt64_toUInt64] at hvalue
  exact loadInt64_eq_some_iff.mpr ⟨_, hbits.numberAt (UInt64.toNat_lt _), hvalue⟩

theorem arena_eq (h : m.ResultAt handle tree reply inputLength) :
    m.resultArena handle = some 0 := by
  have harena := h.fields (16, littleEndian 8 0) (by simp [ResultRecord.fields, resultLayout])
  exact loadPointer_eq_some_iff.mpr (harena.numberAt (by decide))

/-- A guard has a root unless the node of the reply is null. -/
theorem root?_eq (h : m.ResultAt handle tree reply inputLength) {n : Nat} (i : Fin n) :
    (⟨i, handle⟩ : Guard n).root? m =
      if reply.node.isNull then none else some (tree.elim 0 ForeignTree.root) := by
  rw [Guard.root?, if_neg h.handle_ne_zero, h.root_eq]
  have hzero := h.laid.eq_zero_iff
  cases hnull : reply.node.isNull with
  | true =>
    rw [hnull] at hzero
    simp [hzero.mpr rfl]
  | false =>
    rw [hnull] at hzero
    have hne : tree.elim 0 ForeignTree.root ≠ 0 := fun heq => Bool.false_ne_true (hzero.mp heq)
    simp [hne]

/-- **A guard of a result shows what the reply shows.** -/
theorem view_eq (h : m.ResultAt handle tree reply inputLength) (hreply : reply.hasResult = true)
    {n : Nat} (i : Fin n) : (⟨i, handle⟩ : Guard n).view m = reply.view inputLength := by
  have hroot := h.root?_eq i
  have hpointer : ((⟨i, handle⟩ : Guard n).root? m).getD 0 = tree.elim 0 ForeignTree.root := by
    rw [hroot]
    split
    · rename_i hnull
      exact (h.laid.eq_zero_iff.mpr hnull).symm
    · rfl
  have hfacts : ((⟨i, handle⟩ : Guard n).view m).facts = (reply.view inputLength).facts := by
    have hbits : (⟨i, handle⟩ : Guard n).bitLength? m = some (inputBits inputLength) := by
      rw [Guard.bitLength?, if_neg h.handle_ne_zero, h.bitLength_eq]
    have hsome : ((⟨i, handle⟩ : Guard n).root? m).isSome = !reply.node.isNull := by
      rw [hroot]
      cases reply.node.isNull <;> rfl
    have hnull : (⟨i, handle⟩ : Guard n).isNull = false := beq_false_of_ne h.handle_ne_zero
    simp only [Guard.view, Reply.view, hbits, hsome, hnull, hreply, Bool.not_true, if_pos]
  have hreading : ((⟨i, handle⟩ : Guard n).view m).reading = (reply.view inputLength).reading := by
    funext limit
    simp only [Guard.view, Reply.view, hpointer]
    exact h.laid.reading limit
  exact congrArg₂ GuardView.mk hfacts hreading

end ResultAt

end Memory

/-- **A result that is laid out is there**, whatever the reply was. -/
theorem Heap.resultAt_allocResult {A : Allocator} {h h' : Heap} {reply : Reply}
    {handle inputLength : Nat} {tree : Option ForeignTree}
    (ha : h.allocResult A reply inputLength = .ok (handle, tree, h')) :
    h'.memory.ResultAt handle tree reply inputLength := by
  obtain ⟨h₁, htree, hgrows, hfields⟩ := allocResult_eq_ok ha
  have hrecord := hgrows.addressable _ List.mem_cons_self
  refine ⟨⟨List.mem_cons_self, hrecord⟩, hfields, ?_⟩
  cases reply with
  | matched node =>
    simp only [allocTree, AllocationFailure.bind_eq_ok_iff, Prod.exists] at htree
    obtain ⟨t, h₂, hbuild, heq⟩ := htree
    obtain ⟨rfl, rfl⟩ := Prod.mk.inj (Except.ok.inj heq)
    obtain ⟨hnew, hlaid⟩ := ForeignTree.laid_build hbuild
    exact Memory.laid_transfer (List.subset_cons_self _ _) (fun e he => hnew.agree_new hgrows he)
      node hlaid
  | noMatch =>
    obtain ⟨rfl, rfl⟩ := Prod.mk.inj (Except.ok.inj htree)
    exact .null
  | nullResult =>
    obtain ⟨rfl, rfl⟩ := Prod.mk.inj (Except.ok.inj htree)
    exact .null

/-! ## 4. Handles -/

namespace Host

variable {n : Nat} {A : Allocators} {host host' : Host n} {i : Fin n} {handle inputLength : Nat}
  {reply : Reply}

/-- **The handle stands for a reply** on an input of so many bytes: it is null where there is no
result, and otherwise it is out and the result lies at it. -/
inductive Shows (host : Host n) (i : Fin n) : Nat → Reply → Nat → Prop
  | null {inputLength : Nat} : Shows host i 0 .nullResult inputLength
  | result {handle inputLength : Nat} {reply : Reply} {tree : Option ForeignTree}
      (hreply : reply.hasResult = true) (hholds : host.Holds i handle tree)
      (hat : host.heap.memory.ResultAt handle tree reply inputLength) :
      Shows host i handle reply inputLength

/-- **The handle of a run stands for the answer of its script.** -/
theorem shows_of_run {script : Script} {input : List UInt8} (hs : script input = .reply reply)
    (hrun : (Host.run A i script input).run host = ⟨.ok handle, host', []⟩) :
    host'.Shows i handle reply input.length := by
  by_cases hnull : reply = .nullResult
  · subst hnull
    obtain ⟨hhandle, -, -⟩ := Performed.mk.inj ((run_of_nullResult hs).symm.trans hrun)
    obtain rfl := Except.ok.inj hhandle
    exact .null
  cases ha : host.heap.allocResult (host.allocator A) reply input.length with
  | error failure => exact nomatch (run_of_failure hs hnull ha).symm.trans hrun
  | ok result =>
    obtain ⟨handle', tree, heap⟩ := result
    obtain ⟨hhandle, rfl, -⟩ := Performed.mk.inj ((run_of_result hs hnull ha).symm.trans hrun)
    obtain rfl := Except.ok.inj hhandle
    have hholds : ({ host with heap }.withEngine i fun e => e.countRun.handOut handle' tree).Holds i
        handle' tree := by
      rw [holds_handOut fun e => rfl, if_pos ⟨rfl, rfl⟩]
    exact .result (Reply.hasResult_iff.mpr hnull) hholds (Heap.resultAt_allocResult ha)

namespace Shows

/-- A handle goes on standing for its reply while its result is kept. -/
theorem keep (h : host.Shows i handle reply inputLength)
    (hkeeps : ∀ tree, host.Holds i handle tree → host.Keeps host' i handle tree) :
    host'.Shows i handle reply inputLength := by
  cases h with
  | null => exact .null
  | result hreply hholds hat =>
    have hkept := hkeeps _ hholds
    exact .result hreply hkept.holds (hat.transfer hkept.agree)

/-- A handle that is not null is out. -/
theorem isLive (h : host.Shows i handle reply inputLength) (h0 : handle ≠ 0) :
    host.IsLive i handle := by
  cases h with
  | null => exact absurd rfl h0
  | result _ hholds _ => exact isLive_iff.mpr ⟨_, hholds⟩

/-- A handle that is not null stands for a reply with a result. -/
theorem hasResult (h : host.Shows i handle reply inputLength) (h0 : handle ≠ 0) :
    reply.hasResult = true := by
  cases h with
  | null => exact absurd rfl h0
  | result hreply _ _ => exact hreply

/-- The guard of a handle has a root, at which the node lies, unless the node is null. -/
theorem root?_cases (h : host.Shows i handle reply inputLength) :
    (reply.node.isNull = true ∧ (⟨i, handle⟩ : Guard n).root? host.heap.memory = none) ∨
      (reply.node.isNull = false ∧ ∃ root blocks,
        (⟨i, handle⟩ : Guard n).root? host.heap.memory = some root ∧
          host.heap.memory.Laid blocks root reply.node) := by
  cases h with
  | null => exact .inl ⟨rfl, rfl⟩
  | result _ _ hat =>
    have hroot := hat.root?_eq i
    cases hnull : reply.node.isNull with
    | true =>
      rw [hnull] at hroot
      exact .inl ⟨rfl, hroot⟩
    | false =>
      rw [hnull] at hroot
      exact .inr ⟨rfl, _, _, hroot, hat.laid⟩

/-- It has one unless the node is null. -/
theorem isSome_root? (h : host.Shows i handle reply inputLength) :
    ((⟨i, handle⟩ : Guard n).root? host.heap.memory).isSome = !reply.node.isNull := by
  rcases h.root?_cases with ⟨hnull, hroot⟩ | ⟨hnull, root, blocks, hroot, -⟩
  · rw [hroot, hnull]
    rfl
  · rw [hroot, hnull]
    rfl

/-- **The guard of a handle shows what its reply shows.** -/
theorem view (h : host.Shows i handle reply inputLength) :
    (⟨i, handle⟩ : Guard n).view host.heap.memory = reply.view inputLength := by
  cases h with
  | null =>
    have hlaid : host.heap.memory.Laid [] 0 { shape := .null } := .null
    have hreading : ((⟨i, 0⟩ : Guard n).view host.heap.memory).reading =
        (Reply.nullResult.view inputLength).reading := funext hlaid.reading
    exact congrArg (GuardView.mk _) hreading
  | result hreply _ hat => exact hat.view_eq hreply i

end Shows

end Host

end TokenImage
