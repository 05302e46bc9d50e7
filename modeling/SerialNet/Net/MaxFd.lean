import Mathlib.Data.List.FinRange
import Mathlib.Order.Bounds.Defs
import SerialNet.Net.TcpServer

namespace SerialNet

/-!
# `Get_MaxFd` and `select`

`AddSelectFD` puts the listening descriptor and all live clients into the set, and `select` looks
at the descriptors below `Get_MaxFd() + 1`.  The loop of `Get_MaxFd` takes every live client
without a comparison, so the last slot decides, whatever its descriptor is.
-/

/-- The loop of `Get_MaxFd` over the slots `L`. -/
def maxFdLoop (tcpClient : Fin 5 → ℤ) (L : List (Fin 5)) (maxfd : ℤ) : ℤ :=
  L.foldl (fun maxfd i => if tcpClient i ≥ 0 then tcpClient i else maxfd) maxfd

/-- `Get_MaxFd`. -/
def TcpSession.maxFd (s : TcpSession) : ℤ :=
  maxFdLoop s.tcpClient (List.finRange 5) (if 0 ≤ s.tcpServerFd then s.tcpServerFd else 0)

/-- The interrupt handler calls the same function on the same table. -/
theorem TcpSession.maxFd_eq_getMaxFd (s : TcpSession) (d : Device)
    (hserver : d.tcpServerFd = s.tcpServerFd) (hclient : d.tcpClient = s.tcpClient) :
    s.maxFd = getMaxFd d := by
  rw [TcpSession.maxFd, ← hserver, ← hclient]
  rfl

/-- `select` with `nfds` looks at the lower descriptors only. -/
def selectBelow (nfds : ℤ) (pending : List ℤ) : List ℤ := pending.filter (· < nfds)

/-- What `Get_MaxFd` is for. -/
structure SelectsAll (s : TcpSession) : Prop where
  /-- It is the greatest descriptor of the set. -/
  greatest : addSelectFD s ≠ [] → IsGreatest {fd | fd ∈ addSelectFD s} s.maxFd
  /-- Every descriptor of the set is watched. -/
  watched : ∀ fd ∈ addSelectFD s, fd < s.maxFd + 1
  /-- Every client with something to read is found ready. -/
  ready : ∀ pending i, 0 ≤ s.tcpClient i → s.tcpClient i ∈ pending →
    s.tcpClient i ∈ (tcpClientSelectFd s (selectBelow (s.maxFd + 1) pending)).readfd

/-- The live client in the highest slot has the greatest descriptor. -/
def LastClientGreatest (s : TcpSession) : Prop :=
  ∀ i, 0 ≤ s.tcpClient i → (∀ j, i < j → s.tcpClient j < 0) →
    s.tcpServerFd ≤ s.tcpClient i ∧ ∀ j, s.tcpClient j ≤ s.tcpClient i

variable {s : TcpSession}

/-- The loop ends with the last live client of its slots, if there is one. -/
theorem maxFdLoop_cases (tcpClient : Fin 5 → ℤ) (L : List (Fin 5)) (hsorted : L.Pairwise (· < ·)) :
    ∀ maxfd, ((∀ i ∈ L, tcpClient i < 0) ∧ maxFdLoop tcpClient L maxfd = maxfd) ∨
      ∃ i ∈ L, 0 ≤ tcpClient i ∧ (∀ j ∈ L, i < j → tcpClient j < 0) ∧
        maxFdLoop tcpClient L maxfd = tcpClient i := by
  induction L with
  | nil => exact fun _ => Or.inl ⟨fun i hi => absurd hi List.not_mem_nil, rfl⟩
  | cons a L ih =>
    intro maxfd
    obtain ⟨ha, hL⟩ := List.pairwise_cons.mp hsorted
    rcases ih hL (if tcpClient a ≥ 0 then tcpClient a else maxfd) with
      ⟨hdead, heq⟩ | ⟨i, hi, hlive, hlast, heq⟩
    · by_cases hlive : tcpClient a ≥ 0
      · refine Or.inr ⟨a, List.mem_cons_self, hlive, fun j hj haj => ?_, ?_⟩
        · exact hdead j ((List.mem_cons.mp hj).resolve_left haj.ne')
        · rw [if_pos hlive] at heq
          rw [← heq, maxFdLoop, List.foldl_cons, if_pos hlive]
          rfl
      · refine Or.inl ⟨List.forall_mem_cons.mpr ⟨by omega, hdead⟩, ?_⟩
        rw [if_neg hlive] at heq
        rw [maxFdLoop, List.foldl_cons, if_neg hlive]
        exact heq
    · refine Or.inr ⟨i, List.mem_cons_of_mem a hi, hlive, fun j hj hij => ?_, heq⟩
      rcases List.mem_cons.mp hj with rfl | hj
      · exact absurd hij (lt_asymm (ha i hi))
      · exact hlast j hj hij

theorem mem_addSelectFD {fd : ℤ} :
    fd ∈ addSelectFD s ↔ 0 ≤ fd ∧ (fd = s.tcpServerFd ∨ ∃ i, s.tcpClient i = fd) := by
  simp [addSelectFD, and_comm]

/-- `Get_MaxFd` answers the listening descriptor or the last live client. -/
theorem maxFd_cases (s : TcpSession) :
    ((∀ i, s.tcpClient i < 0) ∧ s.maxFd = if 0 ≤ s.tcpServerFd then s.tcpServerFd else 0) ∨
      ∃ i, 0 ≤ s.tcpClient i ∧ (∀ j, i < j → s.tcpClient j < 0) ∧ s.maxFd = s.tcpClient i := by
  rcases maxFdLoop_cases s.tcpClient (List.finRange 5) (List.pairwise_lt_finRange 5)
    (if 0 ≤ s.tcpServerFd then s.tcpServerFd else 0) with ⟨hdead, heq⟩ | ⟨i, -, hlive, hlast, heq⟩
  · exact Or.inl ⟨fun i => hdead i (List.mem_finRange i), heq⟩
  · exact Or.inr ⟨i, hlive, fun j hij => hlast j (List.mem_finRange j) hij, heq⟩

/-- The answer is in the set, unless the set is empty. -/
theorem maxFd_mem (hne : addSelectFD s ≠ []) : s.maxFd ∈ addSelectFD s := by
  rcases maxFd_cases s with ⟨hdead, heq⟩ | ⟨i, hlive, -, heq⟩
  · obtain ⟨fd, hfd⟩ := List.exists_mem_of_ne_nil _ hne
    obtain ⟨hpos, rfl | ⟨i, hi⟩⟩ := mem_addSelectFD.mp hfd
    · rw [if_pos hpos] at heq
      rw [heq]
      exact hfd
    · have := hdead i
      omega
  · rw [heq]
    exact mem_addSelectFD.mpr ⟨hlive, Or.inr ⟨i, rfl⟩⟩

/-- It is an upper bound exactly under the condition. -/
theorem le_maxFd_iff : (∀ fd ∈ addSelectFD s, fd ≤ s.maxFd) ↔ LastClientGreatest s := by
  constructor
  · intro hle i hlive hlast
    rcases maxFd_cases s with ⟨hdead, -⟩ | ⟨k, hk, hklast, heq⟩
    · exact absurd (hdead i) (by omega)
    · -- there is only one last live client
      have hik : i = k := by
        rcases lt_trichotomy i k with hlt | rfl | hlt
        · exact absurd (hlast k hlt) (by omega)
        · rfl
        · exact absurd (hklast i hlt) (by omega)
      subst hik
      rw [heq] at hle
      have hbound : ∀ fd, (fd = s.tcpServerFd ∨ ∃ j, s.tcpClient j = fd) → fd ≤ s.tcpClient i := by
        intro fd hfd
        by_cases hpos : 0 ≤ fd
        · exact hle fd (mem_addSelectFD.mpr ⟨hpos, hfd⟩)
        · omega
      exact ⟨hbound _ (Or.inl rfl), fun j => hbound _ (Or.inr ⟨j, rfl⟩)⟩
  · intro h fd hfd
    obtain ⟨hpos, hmem⟩ := mem_addSelectFD.mp hfd
    rcases maxFd_cases s with ⟨hdead, heq⟩ | ⟨i, hlive, hlast, heq⟩
    · rcases hmem with rfl | ⟨i, rfl⟩
      · rw [heq, if_pos hpos]
      · exact absurd (hdead i) (by omega)
    · rw [heq]
      obtain ⟨hserver, hclient⟩ := h i hlive hlast
      rcases hmem with rfl | ⟨j, rfl⟩
      · exact hserver
      · exact hclient j

theorem mem_readfd {ready : List ℤ} {fd : ℤ} :
    fd ∈ (tcpClientSelectFd s ready).readfd ↔ fd ∈ addSelectFD s ∧ fd ∈ ready := by
  simp [tcpClientSelectFd]

/-- **`Get_MaxFd`** does what it is for exactly if the last live client has the greatest
    descriptor. -/
theorem selectsAll_iff (s : TcpSession) : SelectsAll s ↔ LastClientGreatest s := by
  rw [← le_maxFd_iff]
  constructor
  · intro h fd hfd
    have := h.watched fd hfd
    omega
  · intro hle
    have hwatched : ∀ fd ∈ addSelectFD s, fd < s.maxFd + 1 := fun fd hfd => by
      have := hle fd hfd
      omega
    refine ⟨fun hne => ⟨maxFd_mem hne, fun fd hfd => hle fd hfd⟩, hwatched, ?_⟩
    intro pending i hlive hpending
    have hset : s.tcpClient i ∈ addSelectFD s := mem_addSelectFD.mpr ⟨hlive, Or.inr ⟨i, rfl⟩⟩
    apply mem_readfd.mpr
    exact ⟨hset, List.mem_filter.mpr ⟨hpending, decide_eq_true (hwatched _ hset)⟩⟩

/-- Two clients come, the first one leaves, and the next one gets a greater descriptor, because
    another socket was opened meanwhile. -/
def slotReuse : List TcpEvent :=
  [.mode .data, .create (some 0) 0 0] ++
  .poll .data [0] :: .accept (some 1) :: List.replicate 5 (.recv 0) ++
  .poll .data [0] :: .accept (some 2) :: List.replicate 5 (.recv 0) ++
  .poll .data [1] :: List.replicate 5 (.recv 0) ++
  .poll .data [0] :: .accept (some 3) :: List.replicate 5 (.recv 0)

/-- The client in the first slot is then not watched. -/
theorem selectsAll_slotReuse :
    ∃ s, run tcpStep (tcpStart 0 fun _ => 0) slotReuse = some s ∧ addSelectFD s = [0, 3, 2] ∧
      s.maxFd = 2 ∧ ¬ SelectsAll s := by
  refine ⟨runEnd tcpStep (tcpStart 0 fun _ => 0) slotReuse, ?_, ?_, ?_, fun h => ?_⟩
  · exact run_eq_runEnd (by decide)
  · decide
  · decide
  · have hwatched := h.watched 3 (by decide)
    exact absurd hwatched (by decide)

end SerialNet
