import IguanaIR.CommPipe

/-! # Shutting down

`reapAllChildren` of `client-interface.c`, behind the loop of `waitOnCommPipe`, with the workers
that it waits for.  A worker's device is on the list of the driver until `releaseDevice` removes
it, and only later does the end of `workLoop` write the worker's id to the pipe.  `stopDevices`
counts the list, and the loop behind it joins that many ids, whosever they are.

The ids of threads that were joined may be used again, so threads are compared as lists. -/

namespace IguanaIR

/-! ### The main thread and its workers -/

inductive Main where
  /-- In the loop of `waitOnCommPipe`. -/
  | waiting
  /-- In the loop of `reapAllChildren`, which is to join `x` more. -/
  | reaping (x : ℕ)
  /-- `releaseDevices` was called, behind a timeout or without. -/
  | released (timedOut : Bool)
deriving DecidableEq, Repr

structure Shutdown where
  comm : CommPipe
  /-- The workers that were ever started. -/
  started : List ThreadPtr
  /-- Those with their device on the list. -/
  listed : List ThreadPtr
  /-- Those that have left the list, but have not written their id. -/
  leaving : List ThreadPtr
  main : Main
deriving DecidableEq, Repr

/-- The thread that a message is about. -/
def Message.thread : Message → Option ThreadPtr
  | .join thread => some thread
  | .command _ => none

/-- The threads that were joined. -/
def CommPipe.joined (c : CommPipe) : List ThreadPtr := c.done.filterMap Message.thread

/-- Is the next word a thread to join? -/
def CommPipe.joinsNext (c : CommPipe) : Bool :=
  !c.half && c.pipe.head?.any (· ≠ INVALID_THREAD_PTR)

namespace Shutdown

def initial : Shutdown := ⟨.start, [], [], [], .waiting⟩

/-- Every worker that was ever started has been joined. -/
def AllJoined (s : Shutdown) : Prop := s.comm.joined.Perm s.started

/-- Every worker that has not been joined still has its device on the list. -/
def Counted (s : Shutdown) : Prop := (s.comm.joined ++ s.listed).Perm s.started

/-- Where the main thread is behind the next word. -/
def afterRead (s : Shutdown) : Option Main :=
  match s.main with
  | .waiting => if s.comm.reaping then none else some .waiting
  | .reaping x =>
      if x = 0 then none
      else some (.reaping (if s.comm.joinsNext then x - 1 else x))
  | .released _ => none

end Shutdown

inductive ShutdownMove where
  /-- A scan starts a worker. -/
  | start (thread : ThreadPtr)
  /-- A worker releases its device. -/
  | leave (thread : ThreadPtr)
  /-- It writes its id. -/
  | join (thread : ThreadPtr)
  | flag (writer : ℕ) (cmd : ThreadPtr)
  | command (writer : ℕ)
  | read
  /-- `stopDevices`, behind the command to quit. -/
  | stop
  | timeout
  /-- `releaseDevices`, when nothing is left to join. -/
  | release
deriving DecidableEq, Repr

def shutdownStep (justDescribe : Bool) (s : Shutdown) : ShutdownMove → Option (Shutdown × Unit)
  | .start thread =>
      if s.main = .waiting ∧ s.comm.reaping = false ∧ thread ≠ INVALID_THREAD_PTR then
        some ({ s with started := s.started ++ [thread], listed := s.listed ++ [thread] }, ())
      else none
  | .leave thread =>
      if thread ∈ s.listed then
        some ({ s with listed := s.listed.erase thread, leaving := s.leaving ++ [thread] }, ())
      else none
  | .join thread =>
      if thread ∈ s.leaving then
        (pipeStep justDescribe s.comm (.join thread)).map (fun r =>
          ({ s with comm := r.1, leaving := s.leaving.erase thread }, ()))
      else none
  | .flag writer cmd =>
      (pipeStep justDescribe s.comm (.flag writer cmd)).map (fun r => ({ s with comm := r.1 }, ()))
  | .command writer =>
      (pipeStep justDescribe s.comm (.command writer)).map (fun r => ({ s with comm := r.1 }, ()))
  | .read => do
      let main ← s.afterRead
      let (comm, _) ← pipeStep justDescribe s.comm .read
      some ({ s with comm := comm, main := main }, ())
  | .stop =>
      if s.main = .waiting ∧ s.comm.reaping = true then
        some ({ s with main := .reaping s.listed.length }, ())
      else none
  | .timeout =>
      match s.main with
      | .reaping x =>
          if x ≠ 0 ∧ s.comm.half = false ∧ s.comm.pipe = [] then
            some ({ s with main := .released true }, ())
          else none
      | _ => none
  | .release => if s.main = .reaping 0 then some ({ s with main := .released false }, ()) else none

/-- Nobody writes between the two writes of a command. -/
def KeepsMessages (s : Shutdown) : ShutdownMove → Prop
  | .flag _ _ | .join _ => s.comm.pending = []
  | _ => True

instance : DecidableRel KeepsMessages
  | s, .flag _ _ | s, .join _ => inferInstanceAs (Decidable (s.comm.pending = []))
  | _, .start _ | _, .leave _ | _, .command _ | _, .read | _, .stop | _, .timeout | _, .release =>
      isTrue trivial

/-! ### Where the workers are -/

variable {justDescribe : Bool}

/-- When a move is made, and the state behind it. -/
theorem shutdownStep_spec {s s' : Shutdown} {m : ShutdownMove} {u : Unit}
    (h : shutdownStep justDescribe s m = some (s', u)) :
    match m with
    | .start thread => s.main = .waiting ∧
        s' = { s with started := s.started ++ [thread], listed := s.listed ++ [thread] }
    | .leave thread => thread ∈ s.listed ∧
        s' = { s with listed := s.listed.erase thread, leaving := s.leaving ++ [thread] }
    | .join thread => thread ∈ s.leaving ∧
        ∃ comm u', pipeStep justDescribe s.comm (.join thread) = some (comm, u') ∧
          s' = { s with comm := comm, leaving := s.leaving.erase thread }
    | .flag writer cmd =>
        ∃ comm u', pipeStep justDescribe s.comm (.flag writer cmd) = some (comm, u') ∧
          s' = { s with comm := comm }
    | .command writer =>
        ∃ comm u', pipeStep justDescribe s.comm (.command writer) = some (comm, u') ∧
          s' = { s with comm := comm }
    | .read => ∃ main comm u', s.afterRead = some main ∧
        pipeStep justDescribe s.comm .read = some (comm, u') ∧
        s' = { s with comm := comm, main := main }
    | .stop => s.main = .waiting ∧ s' = { s with main := .reaping s.listed.length }
    | .timeout => (∃ x, s.main = .reaping x) ∧ s' = { s with main := .released true }
    | .release => s.main = .reaping 0 ∧ s' = { s with main := .released false } := by
  cases m with
  | start thread =>
      simp only [shutdownStep] at h
      split_ifs at h with hmain
      exact ⟨hmain.1, (Prod.mk.inj (Option.some.inj h)).1.symm⟩
  | leave thread =>
      simp only [shutdownStep] at h
      split_ifs at h with hmem
      exact ⟨hmem, (Prod.mk.inj (Option.some.inj h)).1.symm⟩
  | join thread =>
      simp only [shutdownStep] at h
      split_ifs at h with hmem
      obtain ⟨⟨comm, u'⟩, hstep, h⟩ := Option.map_eq_some_iff.mp h
      exact ⟨hmem, comm, u', hstep, (Prod.mk.inj h).1.symm⟩
  | flag | command =>
      obtain ⟨⟨comm, u'⟩, hstep, h⟩ := Option.map_eq_some_iff.mp h
      exact ⟨comm, u', hstep, (Prod.mk.inj h).1.symm⟩
  | read =>
      simp only [shutdownStep, Option.bind_eq_bind, Option.bind_eq_some_iff, Prod.exists] at h
      obtain ⟨main, hafter, comm, u', hstep, h⟩ := h
      exact ⟨main, comm, u', hafter, hstep, (Prod.mk.inj (Option.some.inj h)).1.symm⟩
  | stop =>
      simp only [shutdownStep] at h
      split_ifs at h with hmain
      exact ⟨hmain.1, (Prod.mk.inj (Option.some.inj h)).1.symm⟩
  | timeout =>
      simp only [shutdownStep] at h
      split at h
      · next x hmain =>
          split_ifs at h
          exact ⟨⟨x, hmain⟩, (Prod.mk.inj (Option.some.inj h)).1.symm⟩
      · cases h
  | release =>
      simp only [shutdownStep] at h
      split_ifs at h with hmain
      exact ⟨hmain, (Prod.mk.inj (Option.some.inj h)).1.symm⟩

/-- A word that is read is joined, or not. -/
theorem pipeStep_read {c c' : CommPipe} {u : Unit}
    (h : pipeStep justDescribe c .read = some (c', u)) :
    c'.sent = c.sent ∧ c'.joined.length = c.joined.length + if c.joinsNext then 1 else 0 := by
  obtain ⟨pipe, pending, half, reaping, sent, done, discarded⟩ := c
  cases pipe with
  | nil => cases h
  | cons word words =>
      obtain ⟨rfl, -⟩ := Prod.mk.inj (Option.some.inj h)
      cases half with
      | true =>
          cases reaping <;>
            simp [CommPipe.readWord, CommPipe.execute, CommPipe.joined, CommPipe.joinsNext,
              Message.thread]
      | false =>
          by_cases hword : word = INVALID_THREAD_PTR <;>
            simp [CommPipe.readWord, CommPipe.joined, CommPipe.joinsNext, hword, Message.thread]

/-- The threads that a move writes. -/
def PipeMove.threads : PipeMove → List ThreadPtr
  | .join thread => [thread]
  | _ => []

/-- A write adds its thread to what was sent, and joins nothing. -/
theorem pipeStep_write {c c' : CommPipe} {m : PipeMove} {u : Unit} (hm : m ≠ .read)
    (h : pipeStep justDescribe c m = some (c', u)) :
    c'.done = c.done ∧ c'.sent.filterMap Message.thread =
      c.sent.filterMap Message.thread ++ m.threads := by
  cases m with
  | flag writer cmd =>
      simp only [pipeStep] at h
      split_ifs at h
      obtain ⟨rfl, -⟩ := Prod.mk.inj (Option.some.inj h)
      simp [PipeMove.threads]
  | command writer =>
      obtain ⟨p, -, h⟩ := Option.map_eq_some_iff.mp h
      obtain ⟨rfl, -⟩ := Prod.mk.inj h
      simp [PipeMove.threads, Message.thread]
  | join thread =>
      simp only [pipeStep] at h
      split_ifs at h
      obtain ⟨rfl, -⟩ := Prod.mk.inj (Option.some.inj h)
      simp [PipeMove.threads, Message.thread]
  | read => exact absurd rfl hm

/-- A worker is on the list, on its way out, or has written its id. -/
structure Accounts (s : Shutdown) (rest : List Message) : Prop where
  decodes : Decodes s.comm rest
  workers : (s.listed ++ s.leaving ++ s.comm.sent.filterMap Message.thread).Perm s.started

namespace Accounts

variable {s : Shutdown} {rest : List Message}

/-- The workers that were not joined are on the list, on their way out, or in the pipe. -/
theorem joined_append (hs : Accounts s rest) :
    (s.comm.joined ++ (s.listed ++ (s.leaving ++ rest.filterMap Message.thread))).Perm
      s.started := by
  have hdiscarded : (s.comm.discarded.map Message.command).filterMap Message.thread = [] := by
    simp [List.filterMap_map, Function.comp_def, Message.thread]
  have hsent := hs.decodes.messages.filterMap Message.thread
  rw [CommPipe.read, List.filterMap_append, List.filterMap_append, hdiscarded, List.append_nil]
    at hsent
  refine List.Perm.trans ?_ hs.workers
  rw [← List.append_assoc, ← List.append_assoc]
  refine List.Perm.trans ?_ (hsent.append_left (s.listed ++ s.leaving))
  rw [← List.append_assoc]
  refine List.Perm.append_right _ ?_
  rw [List.append_assoc]
  exact List.perm_append_comm

end Accounts

/-- Part of a list is all of it if it is as long. -/
theorem perm_iff_length {α : Type} {a b c : List α} (h : (a ++ b).Perm c) :
    a.Perm c ↔ a.length = c.length := by
  refine ⟨List.Perm.length_eq, ?_⟩
  intro hlen
  have hsum := h.length_eq
  rw [List.length_append] at hsum
  obtain rfl : b = [] := List.eq_nil_of_length_eq_zero (by omega)
  rwa [List.append_nil] at h

/-- A write to the pipe, and what it does to the workers on their way out. -/
theorem Accounts.write {s : Shutdown} {m : PipeMove} {comm : CommPipe} {u : Unit}
    {leaving : List ThreadPtr} (hs : ∃ rest, Accounts s rest) (hm : m ≠ .read)
    (hguard : KeepsCommands s.comm m)
    (h : pipeStep justDescribe s.comm m = some (comm, u))
    (hleaving : (leaving ++ m.threads).Perm s.leaving) :
    ∃ rest, Accounts { s with comm := comm, leaving := leaving } rest := by
  obtain ⟨rest, hs⟩ := hs
  obtain ⟨rest', hdecodes⟩ := pipeStep_decodes s.comm m comm u ⟨rest, hs.decodes⟩ hguard h
  refine ⟨rest', hdecodes, ?_⟩
  refine List.Perm.trans ?_ hs.workers
  simp only [(pipeStep_write hm h).2]
  rw [List.append_assoc, List.append_assoc]
  refine List.Perm.append_left _ ?_
  refine List.Perm.trans ?_ (hleaving.append_right _)
  rw [List.append_assoc]
  exact List.perm_append_comm.append_left _

theorem shutdownStep_accounts (s : Shutdown) (m : ShutdownMove) (s' : Shutdown) (u : Unit)
    (hs : ∃ rest, Accounts s rest) (hguard : KeepsMessages s m)
    (h : shutdownStep justDescribe s m = some (s', u)) : ∃ rest, Accounts s' rest := by
  have hspec := shutdownStep_spec h
  cases m with
  | start thread =>
      obtain ⟨rest, hs⟩ := hs
      obtain ⟨-, rfl⟩ := hspec
      refine ⟨rest, hs.decodes, ?_⟩
      refine List.Perm.trans ?_ (hs.workers.append_right [thread])
      simp only [List.append_assoc]
      exact List.Perm.append_left _ (List.perm_append_comm.trans (by simp [List.append_assoc]))
  | leave thread =>
      obtain ⟨rest, hs⟩ := hs
      obtain ⟨hmem, rfl⟩ := hspec
      refine ⟨rest, hs.decodes, ?_⟩
      refine List.Perm.trans ?_ hs.workers
      refine List.Perm.append_right _ ?_
      refine List.Perm.trans ?_ ((List.perm_cons_erase hmem).symm.append_right _)
      rw [← List.append_assoc]
      exact List.perm_append_comm
  | join thread =>
      obtain ⟨hmem, comm, u', hstep, rfl⟩ := hspec
      refine Accounts.write (m := .join thread) hs nofun hguard hstep ?_
      exact List.perm_append_comm.trans (List.perm_cons_erase hmem).symm
  | flag writer cmd =>
      obtain ⟨comm, u', hstep, rfl⟩ := hspec
      exact Accounts.write (m := .flag writer cmd) hs nofun hguard hstep (by simp [PipeMove.threads])
  | command writer =>
      obtain ⟨comm, u', hstep, rfl⟩ := hspec
      exact Accounts.write (m := .command writer) hs nofun trivial hstep (by simp [PipeMove.threads])
  | read =>
      obtain ⟨rest, hs⟩ := hs
      obtain ⟨main, comm, u', -, hstep, rfl⟩ := hspec
      obtain ⟨rest', hdecodes⟩ :=
        pipeStep_decodes s.comm .read comm u' ⟨rest, hs.decodes⟩ trivial hstep
      refine ⟨rest', hdecodes, ?_⟩
      rw [(pipeStep_read hstep).1]
      exact hs.workers
  | stop | timeout | release =>
      obtain ⟨rest, hs⟩ := hs
      obtain ⟨-, rfl⟩ := hspec
      exact ⟨rest, hs.decodes, hs.workers⟩

/-! ### The count -/

/-- How many workers the loop misses, once the list has been counted. -/
def Misses (k : ℕ) (s : Shutdown) : Prop :=
  match s.main with
  | .waiting => False
  | .reaping x => s.comm.joined.length + x + k = s.started.length
  | .released timedOut => timedOut = false → s.comm.joined.length + k = s.started.length

theorem shutdownStep_misses {k : ℕ} (s : Shutdown) (m : ShutdownMove) (s' : Shutdown) (u : Unit)
    (hs : Misses k s) (h : shutdownStep justDescribe s m = some (s', u)) : Misses k s' := by
  have hspec := shutdownStep_spec h
  have hmain : s.main ≠ .waiting := by
    intro hwaiting
    rw [Misses, hwaiting] at hs
    exact hs
  -- a write joins nothing
  have hwrite {m : PipeMove} {comm : CommPipe} {u : Unit}
      (hstep : pipeStep justDescribe s.comm m = some (comm, u)) (hm : m ≠ .read)
      (leaving : List ThreadPtr) : Misses k { s with comm := comm, leaving := leaving } := by
    have hjoined : comm.joined = s.comm.joined := by
      rw [CommPipe.joined, (pipeStep_write hm hstep).1]
      rfl
    simp only [Misses, hjoined]
    exact hs
  cases m with
  | start thread => exact absurd hspec.1 hmain
  | leave thread =>
      obtain ⟨-, rfl⟩ := hspec
      exact hs
  | join thread =>
      obtain ⟨-, comm, u', hstep, rfl⟩ := hspec
      exact hwrite hstep nofun _
  | flag writer cmd =>
      obtain ⟨comm, u', hstep, rfl⟩ := hspec
      exact hwrite hstep nofun s.leaving
  | command writer =>
      obtain ⟨comm, u', hstep, rfl⟩ := hspec
      exact hwrite hstep nofun s.leaving
  | read =>
      obtain ⟨main, comm, u', hafter, hstep, rfl⟩ := hspec
      have hjoined := (pipeStep_read hstep).2
      simp only [Shutdown.afterRead] at hafter
      cases hm : s.main with
      | waiting => exact absurd hm hmain
      | released timedOut => simp [hm] at hafter
      | reaping x =>
          simp only [hm] at hafter
          split_ifs at hafter with hzero hjoins
          · obtain rfl := Option.some.inj hafter
            rw [if_pos hjoins] at hjoined
            simp only [Misses, hm] at hs ⊢
            omega
          · obtain rfl := Option.some.inj hafter
            rw [if_neg hjoins] at hjoined
            simp only [Misses, hm] at hs ⊢
            omega
  | stop => exact absurd hspec.1 hmain
  | timeout =>
      obtain ⟨-, rfl⟩ := hspec
      exact nofun
  | release =>
      obtain ⟨hm, rfl⟩ := hspec
      simp only [Misses, hm] at hs ⊢
      intro _
      omega

/-- The main thread only leaves its loop through `stopDevices`. -/
theorem stops : ∀ {moves : List ShutdownMove} {s s' : Shutdown} {outputs : List Unit},
    s.main = .waiting → Transition.run (shutdownStep justDescribe) s moves = some (s', outputs) →
      s'.main ≠ .waiting → ∃ pre post, moves = pre ++ .stop :: post
  | [], s, s', outputs, hwaiting, h, hend => by
      obtain ⟨rfl, -⟩ := Prod.mk.inj (Option.some.inj h)
      exact absurd hwaiting hend
  | m :: moves, s, s', outputs, hwaiting, h, hend => by
      obtain ⟨s₁, o, os', hstep, hrest, -⟩ := Transition.run_cons h
      have hspec := shutdownStep_spec hstep
      by_cases hm : m = .stop
      · exact ⟨[], moves, by rw [hm]; rfl⟩
      · have hstill : s₁.main = .waiting := by
          cases m with
          | stop => exact absurd rfl hm
          | start thread | leave thread =>
              obtain ⟨-, rfl⟩ := hspec
              exact hwaiting
          | join thread =>
              obtain ⟨-, comm, u', -, rfl⟩ := hspec
              exact hwaiting
          | flag | command =>
              obtain ⟨comm, u', -, rfl⟩ := hspec
              exact hwaiting
          | read =>
              obtain ⟨main, comm, u', hafter, -, rfl⟩ := hspec
              simp only [Shutdown.afterRead, hwaiting] at hafter
              split_ifs at hafter
              exact (Option.some.inj hafter).symm
          | timeout =>
              obtain ⟨⟨x, hx⟩, -⟩ := hspec
              rw [hwaiting] at hx
              cases hx
          | release =>
              rw [hwaiting] at hspec
              cases hspec.1
        obtain ⟨pre, post, rfl⟩ := stops hstill hrest hend
        exact ⟨m :: pre, post, rfl⟩

/-- **The shutdown waits for every worker** in a run whose commands are not torn apart, and that
releases the devices without a timeout, if and only if every worker that was not joined still had
its device on the list when it was counted. -/
theorem shutdown_joins_iff {moves : List ShutdownMove} {s : Shutdown} {outputs : List Unit}
    (h : Transition.run (shutdownStep justDescribe) .initial moves = some (s, outputs))
    (hguard : Transition.Guarded (shutdownStep justDescribe) KeepsMessages .initial moves)
    (hend : s.main = .released false) :
    ∃ pre post s₀ outputs₀, moves = pre ++ .stop :: post ∧
      Transition.run (shutdownStep justDescribe) .initial pre = some (s₀, outputs₀) ∧
      (s.AllJoined ↔ s₀.Counted) := by
  obtain ⟨pre, post, rfl⟩ := stops rfl h (by rw [hend]; nofun)
  obtain ⟨s₀, outputs₀, outputs₁, hpre, hrun⟩ := Transition.run_append h
  refine ⟨pre, post, s₀, outputs₀, rfl, hpre, ?_⟩
  have hstart : ∃ rest, Accounts Shutdown.initial rest :=
    ⟨[], ⟨List.Perm.refl _, nofun, rfl, Nat.zero_le _, fun _ => rfl⟩, List.Perm.refl _⟩
  obtain ⟨rest, hs⟩ :=
    Transition.run_invariant shutdownStep_accounts _ _ s outputs hstart hguard h
  obtain ⟨rest₀, hs₀⟩ := Transition.run_invariant shutdownStep_accounts pre _ s₀ outputs₀ hstart
    (Transition.guarded_append hguard hpre).1 hpre
  obtain ⟨s₁, o, outputs₂, hstep, hpost, -⟩ := Transition.run_cons hrun
  have hcount₀ := hs₀.joined_append.length_eq
  rw [List.length_append, List.length_append] at hcount₀
  have hmisses : Misses (s₀.started.length - (s₀.comm.joined.length + s₀.listed.length)) s₁ := by
    obtain ⟨-, rfl⟩ := shutdownStep_spec hstep
    simp only [Misses]
    omega
  have hmissed := Transition.run_always shutdownStep_misses post s₁ s outputs₂ hmisses hpost
  rw [Misses, hend] at hmissed
  have hlength := hmissed rfl
  have hjoined : s.AllJoined ↔ s.comm.joined.length = s.started.length :=
    perm_iff_length hs.joined_append
  have hcounted : s₀.Counted ↔ (s₀.comm.joined ++ s₀.listed).length = s₀.started.length := by
    refine perm_iff_length (b := s₀.leaving ++ rest₀.filterMap Message.thread) ?_
    rw [List.append_assoc]
    exact hs₀.joined_append
  rw [hjoined, hcounted, List.length_append]
  omega

/-- A run of two workers: the first one leaves before the command to quit, and writes its id
before it too, or only behind the count. -/
def quitMoves : Bool → List ShutdownMove
  | true => [.start 0x7F01, .start 0x7F02, .leave 0x7F01, .join 0x7F01, .read,
      .flag 0 QUIT_TRIGGER, .command 0, .read, .read, .stop, .leave 0x7F02, .join 0x7F02, .read,
      .release]
  | false => [.start 0x7F01, .start 0x7F02, .leave 0x7F01, .flag 0 QUIT_TRIGGER, .command 0, .read,
      .read, .stop, .join 0x7F01, .read, .release]

theorem shutdown_joins_early : ∃ s outputs,
    Transition.run (shutdownStep false) .initial (quitMoves true) = some (s, outputs) ∧
    ∃ pre post s₀ outputs₀, quitMoves true = pre ++ .stop :: post ∧
      Transition.run (shutdownStep false) .initial pre = some (s₀, outputs₀) ∧
      (s.AllJoined ↔ s₀.Counted) :=
  have hguard : Transition.Guarded (shutdownStep false) KeepsMessages .initial (quitMoves true) := by
    decide
  ⟨_, _, rfl, shutdown_joins_iff rfl hguard rfl⟩

/-- The first worker's id comes in behind the count, and is taken for the second's. -/
theorem shutdown_misses_worker : ∃ s outputs,
    Transition.run (shutdownStep false) .initial (quitMoves false) = some (s, outputs) ∧
    s.main = .released false ∧ s.started = [0x7F01, 0x7F02] ∧ s.comm.joined = [0x7F01] ∧
    s.listed = [0x7F02] ∧ ¬s.AllJoined := by
  refine ⟨_, _, rfl, rfl, rfl, rfl, rfl, ?_⟩
  intro h
  exact absurd h.length_eq (by decide)

end IguanaIR
