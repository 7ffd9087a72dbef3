/-
# Replies that are alike

What a client can tell of a reply is less than the reply says: a match of a null node is a result
without a match, and slots to spare show nowhere.  `Reply.bare` is a reply without all that, and
`Reply.view_bare` says that it shows the same.

`Answer.ends` is what a run of an answer comes to, once the addresses are left out: the panic of the
script, the failure of the first element array whose slots cannot be asked for, or a bare reply.  That
is all there is to it for as long as there is memory (`Host.HasRoom`); `Host.run_of_ends` and
`Host.exists_run_of_ends` are the two ways in which a run can end then.

Answers are alike if they come to the same.  For a parse, which hands out no handle, no result is
like a result without a match.
-/
import TokenImage.Proofs.Engine.Releases
import TokenImage.Proofs.Tree.Spare

namespace TokenImage

/-! ## 1. Bare replies -/

@[simp] theorem Node.isNull_bare (n : Node) : n.bare.isNull = n.isNull := by
  obtain ⟨shape, index, bitOffset, spare⟩ := n
  cases shape with
  | null | tagged | none | bytes | signed | unsigned | sequence => rfl

@[simp] theorem Decoder.readNode_bare (d : Decoder) (n : Node) :
    d.readNode n.bare = d.readNode n := by
  rw [readNode, readNode, Node.read_bare]

@[simp] theorem Node.reading_bare (n : Node) : n.bare.reading = n.reading := by
  funext limit
  rw [reading, reading, Decoder.readNode_bare, Decoder.readNode_bare]

namespace Reply

/-- **A reply as it shows**: a result without a match is a match of a null node, and no node has slots
to spare. -/
def bare : Reply → Reply
  | .matched node => .matched node.bare
  | .noMatch => .matched { shape := .null }
  | .nullResult => .nullResult

@[simp] theorem node_bare (reply : Reply) : reply.bare.node = reply.node.bare := by
  cases reply with
  | matched node => rfl
  | noMatch | nullResult => rfl

@[simp] theorem hasResult_bare (reply : Reply) : reply.bare.hasResult = reply.hasResult := by
  cases reply with
  | matched | noMatch | nullResult => rfl

/-- **A bare reply shows what the reply shows.** -/
theorem view_bare (reply : Reply) (inputLength : Nat) :
    reply.bare.view inputLength = reply.view inputLength := by
  rw [view, view, hasResult_bare, node_bare, Node.isNull_bare, Node.reading_bare]

end Reply

/-! ## 2. Answers that are alike -/

namespace Answer

/-- **What a run of an answer comes to**, where there is memory. -/
def ends : Answer → Except Crash Reply
  | .panic text => .error (.panic text)
  | .reply raw =>
    match raw.node.countSlots with
    | .error failure => .error (.allocation failure)
    | .ok () => .ok raw.bare

/-- Answers are alike if runs of them come to the same. -/
def Alike (a b : Answer) : Prop :=
  a.ends = b.ends

/-- Answers are alike for a parse if runs of them come to the same node. -/
def AlikeForParses (a b : Answer) : Prop :=
  a.ends.map Reply.node = b.ends.map Reply.node

theorem Alike.forParses {a b : Answer} (h : a.Alike b) : a.AlikeForParses b :=
  congrArg (Except.map Reply.node) h

theorem ends_eq_ok_iff {a : Answer} {shown : Reply} :
    a.ends = .ok shown ↔
      ∃ raw, a = .reply raw ∧ raw.node.countSlots = .ok () ∧ raw.bare = shown := by
  cases a with
  | panic text => exact ⟨nofun, fun ⟨_, h, _⟩ => nomatch h⟩
  | reply raw =>
    rw [ends]
    cases hcount : raw.node.countSlots with
    | error failure =>
      refine ⟨nofun, fun ⟨raw', hraw, hok, _⟩ => ?_⟩
      obtain rfl := Answer.reply.inj hraw
      exact nomatch hcount.symm.trans hok
    | ok =>
      refine ⟨fun h => ⟨raw, rfl, hcount, Except.ok.inj h⟩, fun ⟨raw', hraw, _, hbare⟩ => ?_⟩
      obtain rfl := Answer.reply.inj hraw
      exact congrArg Except.ok hbare

/-- No match and a match of a null node are alike, wherever that is placed and whatever it has to
spare. -/
theorem alike_noMatch (index : UInt64) (bitOffset : Int8) (spareCapacity : Nat) :
    Alike (.reply .noMatch) (.reply (.matched ⟨.null, index, bitOffset, spareCapacity⟩)) := rfl

/-- Matches are alike if their nodes are but for slots to spare that can be asked for. -/
theorem alike_matched {n k : Node} (hn : n.countSlots = .ok ()) (hk : k.countSlots = .ok ())
    (hbare : n.bare = k.bare) : Alike (.reply (.matched n)) (.reply (.matched k)) := by
  have hleft : (Answer.reply (.matched n)).ends = .ok (.matched n.bare) :=
    ends_eq_ok_iff.mpr ⟨.matched n, rfl, hn, rfl⟩
  rw [Alike, hleft, hbare]
  exact (ends_eq_ok_iff.mpr ⟨.matched k, rfl, hk, rfl⟩).symm

/-- For a parse, no result and no match are alike. -/
theorem alikeForParses_nullResult :
    AlikeForParses (.reply .nullResult) (.reply .noMatch) := rfl

end Answer

/-- Grammars are alike for parses if their answers are, whatever they are asked and however often they
were asked before. -/
def Grammar.AlikeForParses (f g : Grammar) : Prop :=
  ∀ count input, (f count input).AlikeForParses (g count input)

/-! ## 3. Runs where there is memory -/

namespace Heap

/-- A result that is laid out had slots that could be asked for. -/
theorem countSlots_of_allocResult {A : Allocator} {h h' : Heap} {reply : Reply}
    {inputLength handle : Nat} {tree : Option ForeignTree}
    (ha : h.allocResult A reply inputLength = .ok (handle, tree, h')) :
    reply.node.countSlots = .ok () := by
  cases reply with
  | matched node =>
    obtain ⟨h₁, htree, -, -⟩ := allocResult_eq_ok ha
    simp only [allocTree, AllocationFailure.bind_eq_ok_iff, Prod.exists] at htree
    obtain ⟨t, h₂, hbuild, -⟩ := htree
    obtain ⟨site', hadd, -, -⟩ := ForeignTree.build_eq_ok_iff.mp hbuild
    exact countSlots_of_add node hadd
  | noMatch | nullResult => rfl

end Heap

namespace Host

variable {n : Nat} {A : Allocators} {host host' : Host n} {i : Fin n} {script : Script}
  {input : List UInt8}

/-- **There is memory for a call**: if the result of a run cannot be laid out, that is because slots of
its own cannot be asked for. -/
def HasRoom (A : Allocators) (host : Host n) : Call n → Prop
  | .run i script input => ∀ failure,
    ((Host.run A i script input).run host).result = .error (.allocation failure) →
      (script input).ends = .error (.allocation failure)
  | .release _ _ => True

instance decidableHasRoom (A : Allocators) (host : Host n) :
    (c : Call n) → Decidable (host.HasRoom A c)
  | .run i script input =>
    decidable_of_iff (∀ failure ∈ [AllocationFailure.countOverflow, .tooLarge, .outOfMemory],
      ((Host.run A i script input).run host).result = .error (.allocation failure) →
        (script input).ends = .error (.allocation failure)) <| by
      refine ⟨fun h failure => h failure ?_, fun h failure _ => h failure⟩
      cases failure <;> simp
  | .release _ _ => .isTrue trivial

/-- There is memory for calls in turn. -/
def HasRoomFor (A : Allocators) (host : Host n) : List (Call n) → Prop
  | [] => True
  | c :: cs => host.HasRoom A c ∧ (host.call A c).2.HasRoomFor A cs

instance decidableHasRoomFor (A : Allocators) :
    (host : Host n) → (cs : List (Call n)) → Decidable (host.HasRoomFor A cs)
  | _, [] => .isTrue trivial
  | host, c :: cs =>
    @instDecidableAnd _ _ (decidableHasRoom A host c)
      (decidableHasRoomFor A (host.call A c).2 cs)

theorem hasRoomFor_append {cs ds : List (Call n)} :
    host.HasRoomFor A (cs ++ ds) ↔
      host.HasRoomFor A cs ∧ (host.calls A cs).2.HasRoomFor A ds := by
  induction cs generalizing host with
  | nil => simp only [List.nil_append, HasRoomFor, true_and, calls]
  | cons c cs ih =>
    rw [List.cons_append, HasRoomFor, HasRoomFor, ih, and_assoc]
    rfl

/-- **Where a run comes to nothing, it counts**, and that is all. -/
theorem run_of_ends (hroom : host.HasRoom A (.run i script input)) {c : Crash}
    (hends : (script input).ends = .error c) :
    (Host.run A i script input).run host = ⟨.error c, host.withEngine i Engine.countRun, []⟩ := by
  cases hs : script input with
  | panic text =>
    rw [hs] at hends
    obtain rfl : Crash.panic text = c := Except.error.inj hends
    exact run_of_panic hs
  | reply reply =>
    by_cases hnull : reply = .nullResult
    · subst hnull
      rw [hs] at hends
      exact nomatch hends
    cases ha : host.heap.allocResult (host.allocator A) reply input.length with
    | error failure =>
      have hrun := run_of_failure (i := i) hs hnull ha
      have hsame := hroom failure (by rw [hrun])
      rw [hends] at hsame
      rw [hrun, Except.error.inj hsame]
    | ok result =>
      obtain ⟨handle, tree, heap⟩ := result
      have hok : (script input).ends = .ok reply.bare :=
        Answer.ends_eq_ok_iff.mpr ⟨reply, hs, Heap.countSlots_of_allocResult ha, rfl⟩
      exact nomatch hends.symm.trans hok

/-- **Where a run comes to a reply, it gives a handle**, which stands for a reply that shows the
same. -/
theorem exists_run_of_ends (hroom : host.HasRoom A (.run i script input)) {reply : Reply}
    (hends : (script input).ends = .ok reply) :
    ∃ raw handle host', raw.bare = reply ∧
      (Host.run A i script input).run host = ⟨.ok handle, host', []⟩ ∧
      host'.Shows i handle raw input.length := by
  obtain ⟨raw, hs, -, hbare⟩ := Answer.ends_eq_ok_iff.mp hends
  have hgives : ∃ handle host', (Host.run A i script input).run host = ⟨.ok handle, host', []⟩ := by
    by_cases hnull : raw = .nullResult
    · subst hnull
      exact ⟨_, _, run_of_nullResult hs⟩
    cases ha : host.heap.allocResult (host.allocator A) raw input.length with
    | error failure =>
      have hrun := run_of_failure (i := i) hs hnull ha
      exact nomatch (hroom failure (by rw [hrun])).symm.trans hends
    | ok result => exact ⟨_, _, run_of_result hs hnull ha⟩
  obtain ⟨handle, host', hrun⟩ := hgives
  exact ⟨raw, handle, host', hbare, hrun, shows_of_run hs hrun⟩

end Host

end TokenImage
