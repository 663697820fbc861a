/-
# McDaemon.Client.GpPartial — partial references into a block of shared memory.

A `TEEC_MEMREF_PARTIAL_*` parameter names an offset and a size within a registered block, and a
direction.  The setup compares their sum with the size of the block as machine words, hands the
size on as 32 bits, and refuses two of the pairs of flags and type that contradict each other.
-/
import McDaemon.Client.GpIsolation

namespace McDaemon.Client.Gp

/-! ## Blocks and references -/

/-- `TEEC_RegisterSharedMemory`, on a context and a block that are there. -/
def registerSharedMemory (sharedMem : SharedMemory) : TeecResult :=
  if sharedMem.buffer = 0 then teecErrorBadParameters
  else if sharedMem.flags &&& ~~~Direction.inout.flags ≠ 0 then teecErrorBadParameters
  else if sharedMem.flags = 0 then teecErrorBadParameters
  else teecSuccess

/-- The buffer that is handed to `client.map` for a partial reference is the part of the block that
the reference names, all of it inside the block, with the size asked for and a direction that the
flags of the block allow. -/
structure Inside (ext : Parameter) (b : Buffer) : Prop where
  va : b.va.toNat = ext.parent.buffer.toNat + ext.offset.toNat
  fits : b.va.toNat + b.len.toNat ≤ ext.parent.buffer.toNat + ext.parent.size.toNat
  len : b.len.toNat = ext.size.toNat
  allowed : b.flags &&& ext.parent.flags = b.flags

/-- The reference is empty; or it starts at an address, its offset and its size add up to a machine
word, the size has 32 bits, and if it goes in both directions the block has both flags. -/
def Parameter.Fits (ext : Parameter) (d : Direction) : Prop :=
  ext.size = 0 ∨
    (ext.parent.buffer.toNat + ext.offset.toNat < 18446744073709551616 ∧
      ext.offset.toNat + ext.size.toNat < 18446744073709551616 ∧
      ext.size.toNat < 4294967296 ∧ (d = .inout → ext.parent.flags = Direction.inout.flags))

/-! ## Flags -/

theorem and_or_mask (x a b : UInt32) : x &&& (a ||| b) = x &&& a ||| x &&& b := by
  apply UInt32.toNat_inj.mp
  simp only [UInt32.toNat_and, UInt32.toNat_or]
  exact Nat.and_or_distrib_left _ _ _

/-- A word without bits outside `TEEC_MEM_INOUT` is one of four. -/
theorem toNat_lt_of_masked {flags : UInt32} (h : flags &&& ~~~Direction.inout.flags = 0) :
    flags.toNat < 4 := by
  have hflags : flags = flags &&& Direction.inout.flags := by
    calc flags = flags &&& (Direction.inout.flags ||| ~~~Direction.inout.flags) := by
          rw [UInt32.or_not_self, UInt32.and_neg_one]
      _ = flags &&& Direction.inout.flags := by
          rw [and_or_mask, h, UInt32.or_zero]
  rw [hflags, UInt32.toNat_and]
  exact Nat.lt_of_le_of_lt Nat.and_le_right (by decide)

/-- The flags of a block that has been registered are those of a direction. -/
theorem flags_of_registered {m : SharedMemory} (h : registerSharedMemory m = teecSuccess) :
    ∃ d : Direction, m.flags = d.flags := by
  unfold registerSharedMemory at h
  by_cases hbuffer : m.buffer = 0
  · rw [if_pos hbuffer] at h
    exact absurd h badParameters_ne_success
  by_cases hmask : m.flags &&& ~~~Direction.inout.flags = 0
  · by_cases hzero : m.flags = 0
    · rw [if_neg hbuffer, if_neg (not_not.mpr hmask), if_pos hzero] at h
      exact absurd h badParameters_ne_success
    · have hlt := toNat_lt_of_masked hmask
      have hpos : m.flags.toNat ≠ 0 := fun h => hzero (UInt32.toNat_inj.mp h)
      obtain h1 | h2 | h3 : m.flags.toNat = 1 ∨ m.flags.toNat = 2 ∨ m.flags.toNat = 3 := by omega
      · exact ⟨.input, UInt32.toNat_inj.mp h1⟩
      · exact ⟨.output, UInt32.toNat_inj.mp h2⟩
      · exact ⟨.inout, UInt32.toNat_inj.mp h3⟩
  · rw [if_neg hbuffer, if_pos hmask] at h
    exact absurd h badParameters_ne_success

/-- The setup refuses the two pairs of opposite directions. -/
theorem Operation.not_opposite {op : Operation} {i : Fin 4} {d flow : Direction}
    (ht : op.paramType i = some (.memrefPartial d))
    (hflow : (op.params i).parent.flags = flow.flags)
    (haccepts : op.accepts i = true) :
    ¬ (flow = .input ∧ d = .output) ∧ ¬ (flow = .output ∧ d = .input) := by
  unfold Operation.accepts at haccepts
  rw [ht] at haccepts
  dsimp only at haccepts
  rw [hflow] at haccepts
  refine ⟨?_, ?_⟩
  · rintro ⟨rfl, rfl⟩
    rw [if_pos (by decide)] at haccepts
    cases haccepts
  · rintro ⟨rfl, rfl⟩
    rw [if_pos (by decide)] at haccepts
    cases haccepts

/-- What the setup lets through is allowed, unless it goes in both directions. -/
theorem Operation.allowed_iff {op : Operation} {i : Fin 4} {d : Direction}
    (ht : op.paramType i = some (.memrefPartial d))
    (hreg : registerSharedMemory (op.params i).parent = teecSuccess)
    (haccepts : op.accepts i = true) :
    d.flags &&& (op.params i).parent.flags = d.flags ↔
      (d = .inout → (op.params i).parent.flags = Direction.inout.flags) := by
  obtain ⟨flow, hflow⟩ := flags_of_registered hreg
  obtain ⟨houtput, hinput⟩ := op.not_opposite ht hflow haccepts
  rw [hflow]
  revert houtput hinput
  cases d <;> cases flow <;> decide

/-! ## The buffer of a reference -/

/-- The sum that the setup compares. -/
theorem Operation.sum_le_of_accepts {op : Operation} {i : Fin 4} {d : Direction}
    (ht : op.paramType i = some (.memrefPartial d)) (haccepts : op.accepts i = true) :
    (op.params i).offset + (op.params i).size ≤ (op.params i).parent.size := by
  unfold Operation.accepts at haccepts
  rw [ht] at haccepts
  dsimp only at haccepts
  split at haccepts
  · cases haccepts
  · exact of_decide_eq_true haccepts

/-- The setup maps at most one buffer for a partial reference. -/
theorem Operation.bufs_of_partial {op : Operation} {i : Fin 4} {d : Direction}
    (ht : op.paramType i = some (.memrefPartial d)) : op.bufs i =
      if (op.params i).size ≠ 0 then
        [({ va := (op.params i).parent.buffer + (op.params i).offset,
            len := (op.params i).size.toUInt32, flags := d.flags }, i)]
      else [] := by
  unfold Operation.bufs
  rw [ht]

/-- The buffers of a slot are those of its parameter. -/
theorem Setup.mem_bufs_loop {op : Operation} (haccepted : (Setup.loop op).result = teecSuccess)
    (i : Fin 4) (b : Buffer) : (b, i) ∈ (Setup.loop op).bufs ↔ (b, i) ∈ op.bufs i := by
  obtain ⟨haccepts, hwrites⟩ := Setup.foldl_param_spec op [0, 1, 2, 3] (s := {}) rfl
  have hbufs : (Setup.loop op).bufs = [0, 1, 2, 3].flatMap op.bufs :=
    (hwrites (haccepts.mp haccepted)).2
  rw [hbufs]
  constructor
  · intro h
    obtain ⟨j, -, hj⟩ := List.mem_flatMap.mp h
    obtain rfl : i = j := op.slot_of_mem_bufs hj
    exact hj
  · exact fun h => List.mem_flatMap.mpr ⟨i, mem_allSlots i, h⟩

theorem Setup.accepts_of_loop {op : Operation} (haccepted : (Setup.loop op).result = teecSuccess)
    (i : Fin 4) : op.accepts i = true :=
  (Setup.foldl_param_spec op [0, 1, 2, 3] (s := {}) rfl).1.mp haccepted i (mem_allSlots i)

/-- **A partial reference stays inside its block** exactly when its address, its sum and its size
are not cut off and it does not ask a block with one flag for both directions. -/
theorem partial_inside_iff {op : Operation} {i : Fin 4} {d : Direction}
    (ht : op.paramType i = some (.memrefPartial d))
    (hreg : registerSharedMemory (op.params i).parent = teecSuccess)
    (haccepted : (Setup.loop op).result = teecSuccess) :
    (∀ b, (b, i) ∈ (Setup.loop op).bufs → Inside (op.params i) b) ↔ (op.params i).Fits d := by
  have haccepts := Setup.accepts_of_loop haccepted i
  have hsum := op.sum_le_of_accepts ht haccepts
  have hallowed := op.allowed_iff ht hreg haccepts
  have hle : ((op.params i).offset.toNat + (op.params i).size.toNat) % 18446744073709551616 ≤
      (op.params i).parent.size.toNat := by
    simpa using UInt64.le_iff_toNat_le.mp hsum
  simp only [Setup.mem_bufs_loop haccepted, Operation.bufs_of_partial ht]
  unfold Parameter.Fits
  by_cases hsize : (op.params i).size = 0
  · simp [hsize]
  · rw [if_pos hsize]
    simp only [hsize, false_or, List.mem_singleton, Prod.mk.injEq, and_true, forall_eq]
    rw [← hallowed]
    have hpos : (op.params i).size.toNat ≠ 0 := fun h => hsize (UInt64.toNat_inj.mp h)
    have hoffset := (op.params i).offset.toNat_lt
    have hlen : (op.params i).size.toUInt32.toNat = (op.params i).size.toNat % 4294967296 := by
      simp
    have hva : ((op.params i).parent.buffer + (op.params i).offset).toNat =
        ((op.params i).parent.buffer.toNat + (op.params i).offset.toNat) %
          18446744073709551616 := by
      simp
    have hbuffer := (op.params i).parent.buffer.toNat_lt
    constructor
    · rintro ⟨va, fits, len, allowed⟩
      have hin := (op.params i).parent.size.toNat_lt
      dsimp only at va fits len allowed
      refine ⟨by omega, by omega, by omega, allowed⟩
    · rintro ⟨haddr, hfits, hnarrow, allowed⟩
      refine ⟨?_, ?_, ?_, allowed⟩
      · show ((op.params i).parent.buffer + (op.params i).offset).toNat = _
        omega
      · show ((op.params i).parent.buffer + (op.params i).offset).toNat +
          (op.params i).size.toUInt32.toNat ≤ _
        omega
      · show (op.params i).size.toUInt32.toNat = _
        omega

/-! ## References that leave their block -/

/-- An operation with one partial reference. -/
def partialReference (d : Direction) (parent : SharedMemory) (offset size : UInt64) :
    Operation where
  started := 0
  paramTypes := (ParamType.memrefPartial d).code
  params := fun _ => { parent := parent, offset := offset, size := size }

/-- The upper half of a block of 256 bytes, for input. -/
theorem partial_inside_upperHalf :
    ∃ b, (b, 0) ∈ (Setup.loop (partialReference .input ⟨0x1000, 0x100, 1⟩ 0x80 0x80)).bufs ∧
      Inside ((partialReference .input ⟨0x1000, 0x100, 1⟩ 0x80 0x80).params 0) b :=
  ⟨⟨0x1080, 0x80, 0, 1⟩, by decide,
    (@partial_inside_iff (partialReference .input ⟨0x1000, 0x100, 1⟩ 0x80 0x80) 0 .input
      rfl rfl rfl).mpr (.inr ⟨by decide, by decide, by decide, nofun⟩) _ (by decide)⟩

/-- The setup accepts a partial reference to a registered block and has a buffer mapped that is not
the part of the block that it names, or in a direction that the block does not have. -/
def EscapesBlock (op : Operation) (i : Fin 4) (d : Direction) : Prop :=
  op.paramType i = some (.memrefPartial d) ∧
    registerSharedMemory (op.params i).parent = teecSuccess ∧
    (Setup.loop op).result = teecSuccess ∧
    ∃ b, (b, i) ∈ (Setup.loop op).bufs ∧ ¬ Inside (op.params i) b

/-- The 32 bytes that begin 16 bytes before the block, whose offset and size add up to 16; a block
for input in both directions; and the first 2^32 + 16 bytes of a block, of which 16 are mapped. -/
theorem escapesBlock_partial :
    EscapesBlock (partialReference .input ⟨0x1000, 0x100, 1⟩ 0xFFFFFFFFFFFFFFF0 0x20) 0 .input ∧
    EscapesBlock (partialReference .inout ⟨0x1000, 0x100, 1⟩ 0 0x20) 0 .inout ∧
    EscapesBlock (partialReference .input ⟨0x1000, 0x200000000, 1⟩ 0 0x100000010) 0 .input := by
  refine ⟨⟨rfl, rfl, rfl, ⟨0xFF0, 0x20, 0, 1⟩, ?_, fun h => ?_⟩,
    ⟨rfl, rfl, rfl, ⟨0x1000, 0x20, 0, 3⟩, ?_, fun h => ?_⟩,
    ⟨rfl, rfl, rfl, ⟨0x1000, 0x10, 0, 1⟩, ?_, fun h => ?_⟩⟩
  · decide
  · exact absurd h.va (by decide)
  · decide
  · exact absurd h.allowed (by decide)
  · decide
  · exact absurd h.len (by decide)

end McDaemon.Client.Gp
