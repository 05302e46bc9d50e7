import SerialNet.Lib.Bytes
import SerialNet.Lib.CInt
import Mathlib.Logic.Function.Basic

namespace SerialNet

/-!
# `os_dmem.c` — the dynamic memory pools

A pool is an area of bytes in which every block is preceded by a `DM_HEADER`; the headers are
linked in both directions and circularly, and a last header without a block, the trailer,
is never free.  `OS_GetMem` takes the first free block from `dm_search_ptr` on that is large
enough and splits it if enough is left over; `OS_FreeMem` merges the block with its free
neighbours.

Headers live in byte memory, the pool control blocks beside it.  Addresses and `UNSIGNED`
values are natural numbers below `2^32`, and every computed one is reduced by `u32`.  The
links `dm_created`, which nothing follows, are left out.
-/

/-- `DM_PCB`. -/
structure DmPcb where
  dmId : ℕ
  dmName : List UInt8
  dmStartAddress : ℕ
  dmPoolSize : ℕ
  dmMinAllocation : ℕ
  dmAvailable : ℕ
  dmMemoryList : ℕ
  dmSearchPtr : ℕ
deriving DecidableEq, Repr

/-- Byte memory, the pool control blocks by address, and `DMD_Total_Pools`. -/
structure Heap where
  mem : Memory
  pcb : ℕ → DmPcb
  dmdTotalPools : ℕ

/-- `DM_DYNAMIC_ID`, the mark of a pool that has been created. -/
def dmDynamicId : ℕ := 0x44594e41
/-- `DM_OVERHEAD`, the size of a `DM_HEADER`. -/
def dmOverhead : ℕ := 16
/-- `OS_DMEM_NAME_SIZE`, the length of a pool's name. -/
def osDmemNameSize : ℕ := 4
/-- `OS_ERR_NONE`. -/
def osErrNone : ℕ := 0
/-- `OS_ERR_MEM_FULL`, no free block is large enough. -/
def osErrMemFull : ℕ := 94

/-! ### The fields of a `DM_HEADER` -/

/-- `dm_next_memory`, the block behind this one. -/
def dmNextMemory (m : Memory) (p : ℕ) : ℕ := load32 m p
/-- `dm_previous_memory`, the block in front of it. -/
def dmPreviousMemory (m : Memory) (p : ℕ) : ℕ := load32 m (p + 4)
/-- `dm_memory_free`, a byte that is 0 while the block is allocated. -/
def dmMemoryFree (m : Memory) (p : ℕ) : Bool := m (p + 8) != 0
/-- `dm_memory_pool`, the pool the block belongs to. -/
def dmMemoryPool (m : Memory) (p : ℕ) : ℕ := load32 m (p + 12)

/-- A store to `dm_next_memory`. -/
def setNextMemory (m : Memory) (p x : ℕ) : Memory := store32 m p x
/-- A store to `dm_previous_memory`. -/
def setPreviousMemory (m : Memory) (p x : ℕ) : Memory := store32 m (p + 4) x
/-- A store to `dm_memory_free`. -/
def setMemoryFree (m : Memory) (p : ℕ) (free : Bool) : Memory :=
  store8 m (p + 8) (if free then 1 else 0)
/-- A store to `dm_memory_pool`. -/
def setMemoryPool (m : Memory) (p x : ℕ) : Memory := store32 m (p + 12) x

/-! ### `OS_Create_Memory_Pool` -/

/-- `OS_Create_Memory_Pool` (argument checking is configured off). -/
def osCreateMemoryPool (s : Heap) (poolPtr : ℕ) (name : List UInt8)
    (startAddress poolSize minAllocation : ℕ) : Heap × ℕ :=
  let poolSize := poolSize / 4 * 4
  let pool : DmPcb :=
    { dmId := dmDynamicId
      dmName := name.take osDmemNameSize
      dmStartAddress := startAddress
      dmPoolSize := poolSize
      dmMinAllocation := u32 (u32 (minAllocation + 4 - 1) / 4 * 4)
      dmAvailable := u32 (poolSize - 2 * dmOverhead)
      dmMemoryList := startAddress
      dmSearchPtr := startAddress }
  let headerPtr := startAddress
  let m := setMemoryPool s.mem headerPtr poolPtr
  let m := setMemoryFree m headerPtr true
  let m := setNextMemory m headerPtr (u32 (headerPtr + pool.dmAvailable + dmOverhead))
  let m := setPreviousMemory m headerPtr (dmNextMemory m headerPtr)
  -- the trailer
  let headerPtr := dmNextMemory m headerPtr
  let m := setNextMemory m headerPtr startAddress
  let m := setPreviousMemory m headerPtr startAddress
  let m := setMemoryPool m headerPtr poolPtr
  let m := setMemoryFree m headerPtr false
  ({ mem := m
     pcb := Function.update s.pcb poolPtr pool
     dmdTotalPools := u32 (s.dmdTotalPools + 1) }, osErrNone)

/-! ### `OS_GetMem` -/

/-- The request, raised to the minimum or rounded up to a multiple of the word size. -/
def getMemSize (pool : DmPcb) (size : ℕ) : ℕ :=
  if size < pool.dmMinAllocation then pool.dmMinAllocation
  else u32 (u32 (size + 4 - 1) / 4 * 4)

/-- `free_size`: the payload of a free block, 0 for a block in use. -/
def blockFreeSize (m : Memory) (memoryPtr : ℕ) : ℕ :=
  if dmMemoryFree m memoryPtr then u32 (dmNextMemory m memoryPtr - memoryPtr - dmOverhead) else 0

/-- The search loop, for as many turns as `fuel`: the block it stops at and its `free_size`. -/
def getMemLoop (m : Memory) (searchPtr size : ℕ) : ℕ → ℕ → Option (ℕ × ℕ)
  | 0, _ => none
  | fuel + 1, memoryPtr =>
    let freeSize := blockFreeSize m memoryPtr
    if freeSize < size then
      let memoryPtr := dmNextMemory m memoryPtr
      if memoryPtr ≠ searchPtr then getMemLoop m searchPtr size fuel memoryPtr
      else some (memoryPtr, freeSize)
    else some (memoryPtr, freeSize)

/-- Split the block at `memoryPtr` after `size` bytes of payload. -/
def splitBlock (m : Memory) (poolPtr memoryPtr size : ℕ) : Memory :=
  let newPtr := u32 (memoryPtr + size + dmOverhead)
  let m := setMemoryFree m newPtr true
  let m := setMemoryPool m newPtr poolPtr
  let m := setPreviousMemory m newPtr memoryPtr
  let m := setNextMemory m newPtr (dmNextMemory m memoryPtr)
  let m := setPreviousMemory m (dmNextMemory m newPtr) newPtr
  setNextMemory m memoryPtr newPtr

/-- Hand out the block at `memoryPtr`, whose payload `freeSize` is enough. -/
def takeBlock (s : Heap) (poolPtr memoryPtr freeSize size : ℕ) : Heap × ℕ :=
  let pool := s.pcb poolPtr
  let (m, pool) :=
    if freeSize ≥ u32 (size + dmOverhead + pool.dmMinAllocation) then
      (splitBlock s.mem poolPtr memoryPtr size,
        { pool with dmAvailable := u32 (pool.dmAvailable - size - dmOverhead) })
    else (s.mem, { pool with dmAvailable := u32 (pool.dmAvailable - freeSize) })
  let m := setMemoryFree m memoryPtr false
  let pool :=
    if pool.dmSearchPtr = memoryPtr then { pool with dmSearchPtr := dmNextMemory m memoryPtr }
    else pool
  ({ s with mem := m, pcb := Function.update s.pcb poolPtr pool }, u32 (memoryPtr + dmOverhead))

/-- `OS_GetMem`: the status and the returned pointer; `none` if the search loop does not end.
    The headers of a list take 16 bytes each, so `dmPoolSize` turns are more than it has. -/
def osGetMem (s : Heap) (poolPtr size : ℕ) : Option (Heap × ℕ × ℕ) :=
  let pool := s.pcb poolPtr
  let size := getMemSize pool size
  (getMemLoop s.mem pool.dmSearchPtr size pool.dmPoolSize pool.dmSearchPtr).map
    fun (memoryPtr, freeSize) =>
      if freeSize ≥ size then
        let (s, pointer) := takeBlock s poolPtr memoryPtr freeSize size
        (s, osErrNone, pointer)
      else (s, osErrMemFull, 0)

/-! ### `OS_FreeMem` -/

/-- Merge the block with its previous neighbour if that is free; the memory, the control block
    and the header of the resulting block. -/
def mergeWithPrevious (m : Memory) (pool : DmPcb) (headerPtr : ℕ) : Memory × DmPcb × ℕ :=
  if dmMemoryFree m (dmPreviousMemory m headerPtr) then
    let m := setNextMemory m (dmPreviousMemory m headerPtr) (dmNextMemory m headerPtr)
    let m := setPreviousMemory m (dmNextMemory m headerPtr) (dmPreviousMemory m headerPtr)
    let headerPtr := dmPreviousMemory m headerPtr
    (m, { pool with dmAvailable := u32 (pool.dmAvailable + dmOverhead), dmSearchPtr := headerPtr },
      headerPtr)
  else (m, pool, headerPtr)

/-- Merge the block with its next neighbour if that is free. -/
def mergeWithNext (m : Memory) (pool : DmPcb) (headerPtr : ℕ) : Memory × DmPcb :=
  if dmMemoryFree m (dmNextMemory m headerPtr) then
    let newPtr := dmNextMemory m headerPtr
    let m := setPreviousMemory m (dmNextMemory m newPtr) headerPtr
    let m := setNextMemory m headerPtr (dmNextMemory m newPtr)
    (m, { pool with dmAvailable := u32 (pool.dmAvailable + dmOverhead), dmSearchPtr := headerPtr })
  else (m, pool)

/-- `OS_FreeMem`; the pool is the one the header names. -/
def osFreeMem (s : Heap) (memory : ℕ) : Heap × ℕ :=
  let headerPtr := u32 (memory - dmOverhead)
  let poolPtr := dmMemoryPool s.mem headerPtr
  let m := setMemoryFree s.mem headerPtr true
  let pool := s.pcb poolPtr
  let available : ℤ := pool.dmAvailable + (dmNextMemory m headerPtr - headerPtr) - dmOverhead
  let pool := { pool with dmAvailable := u32 available }
  let r := mergeWithPrevious m pool headerPtr
  let r := mergeWithNext r.1 r.2.1 r.2.2
  ({ s with mem := r.1, pcb := Function.update s.pcb poolPtr r.2 }, osErrNone)

end SerialNet
