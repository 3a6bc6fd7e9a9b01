import IguanaIR.Transition
import Mathlib.Data.List.Perm.Subperm

/-! # The command pipe

`triggerCommand`, `makeParentJoin` and `waitOnCommPipe` of `server.c`.  Commands and the ids of
exiting workers go through one pipe as words of the size of a `THREAD_PTR`: a command is a word
that is no thread id and then the command, in two writes, and a thread id is one write.

Every call of `triggerCommand` is a writer of its own, since signal handlers, the scan timer, the
readers and the workers all write whenever they like. -/

namespace IguanaIR

/-- A `THREAD_PTR`. -/
abbrev ThreadPtr := BitVec 64

def INVALID_THREAD_PTR : ThreadPtr := 0
def SCAN_TRIGGER : ThreadPtr := 0x55
def QUIT_TRIGGER : ThreadPtr := 0x56

/-! ### Messages -/

/-- What is written to the pipe. -/
inductive Message where
  | join (thread : ThreadPtr)
  | command (cmd : ThreadPtr)
deriving DecidableEq, Repr

namespace Message

/-- The words of a message. -/
def words : Message → List ThreadPtr
  | .join thread => [thread]
  | .command cmd => [INVALID_THREAD_PTR, cmd]

/-- An id that is passed to `makeParentJoin` is the id of a thread. -/
def Valid : Message → Prop
  | .join thread => thread ≠ INVALID_THREAD_PTR
  | .command _ => True

instance : ∀ m : Message, Decidable m.Valid
  | .join _ => inferInstanceAs (Decidable (_ ≠ _))
  | .command _ => isTrue trivial

end Message

structure CommPipe where
  pipe : List ThreadPtr
  /-- The calls of `triggerCommand` between their writes. -/
  pending : List (ℕ × ThreadPtr)
  /-- The flag was read, and the command comes next. -/
  half : Bool
  /-- `waitOnCommPipe` has left its loop for `reapAllChildren`. -/
  reaping : Bool
  /-- The messages whose last word was written. -/
  sent : List Message
  /-- The threads joined and the commands executed. -/
  done : List Message
  /-- The commands discarded by `reapAllChildren`. -/
  discarded : List ThreadPtr
deriving DecidableEq, Repr

namespace CommPipe

def start : CommPipe := ⟨[], [], false, false, [], [], []⟩

/-- The messages as they were read. -/
def read (c : CommPipe) : List Message := c.done ++ c.discarded.map .command

/-- A command is executed in `waitOnCommPipe`, which ends with the shutdown, and with the first
scan if it is to describe the devices. -/
def execute (c : CommPipe) (justDescribe : Bool) (cmd : ThreadPtr) : CommPipe :=
  { c with
    done := c.done ++ [.command cmd]
    reaping := cmd == QUIT_TRIGGER || (cmd == SCAN_TRIGGER && justDescribe) }

/-- The next word is read. -/
def readWord (c : CommPipe) (justDescribe : Bool) (word : ThreadPtr) : CommPipe :=
  if c.half then
    if c.reaping then { c with half := false, discarded := c.discarded ++ [word] }
    else { c with half := false }.execute justDescribe word
  else if word ≠ INVALID_THREAD_PTR then { c with done := c.done ++ [.join word] }
  else { c with half := true }

end CommPipe

inductive PipeMove where
  /-- The first write of a call of `triggerCommand`. -/
  | flag (writer : ℕ) (cmd : ThreadPtr)
  /-- Its second write. -/
  | command (writer : ℕ)
  /-- `makeParentJoin`. -/
  | join (thread : ThreadPtr)
  | read
deriving DecidableEq, Repr

def pipeStep (justDescribe : Bool) (c : CommPipe) : PipeMove → Option (CommPipe × Unit)
  | .flag writer cmd =>
      if writer ∈ c.pending.map (·.1) then none
      else some ({ c with
        pipe := c.pipe ++ [INVALID_THREAD_PTR]
        pending := c.pending ++ [(writer, cmd)] }, ())
  | .command writer =>
      (c.pending.find? (·.1 = writer)).map (fun p =>
        ({ c with
          pipe := c.pipe ++ [p.2]
          pending := c.pending.filter (·.1 ≠ writer)
          sent := c.sent ++ [.command p.2] }, ()))
  | .join thread =>
      if thread = INVALID_THREAD_PTR then none
      else some ({ c with pipe := c.pipe ++ [thread], sent := c.sent ++ [.join thread] }, ())
  | .read =>
      match c.pipe with
      | [] => none
      | word :: rest => some ({ c with pipe := rest }.readWord justDescribe word, ())

/-- Only what was sent is joined and executed, each message once, and all of it when the pipe is
empty; commands are discarded during the shutdown only. -/
structure Served (c : CommPipe) : Prop where
  once : c.read.Subperm c.sent
  all : c.pipe = [] → c.half = false → c.read.Perm c.sent
  executed : c.reaping = false → c.discarded = []

/-- Nobody writes between the two writes of a command. -/
def KeepsCommands (c : CommPipe) : PipeMove → Prop
  | .flag _ _ | .join _ => c.pending = []
  | .command _ | .read => True

instance : DecidableRel KeepsCommands
  | c, .flag _ _ | c, .join _ => inferInstanceAs (Decidable (c.pending = []))
  | _, .command _ | _, .read => isTrue trivial

/-! ### The invariant -/

/-- The words that were read of a message that is not complete. -/
def CommPipe.begun (c : CommPipe) : List ThreadPtr :=
  if c.half then [INVALID_THREAD_PTR] else []

/-- The words that were written of a command that is not complete. -/
def CommPipe.unfinished (c : CommPipe) : List ThreadPtr :=
  if c.pending = [] then [] else [INVALID_THREAD_PTR]

/-- The pipe holds the messages that were not read yet, one behind the other. -/
structure Decodes (c : CommPipe) (rest : List Message) : Prop where
  messages : (c.read ++ rest).Perm c.sent
  valid : ∀ m ∈ rest, m.Valid
  words : c.begun ++ c.pipe = rest.flatMap Message.words ++ c.unfinished
  single : c.pending.length ≤ 1
  executed : c.reaping = false → c.discarded = []

namespace Decodes

variable {c : CommPipe} {rest : List Message}

/-- Nothing is left in an empty pipe between two messages. -/
theorem rest_nil (hc : Decodes c rest) (hpipe : c.pipe = []) (hhalf : c.half = false) :
    rest = [] := by
  have hwords := hc.words
  rw [hpipe, CommPipe.begun, hhalf, if_neg Bool.false_ne_true, List.nil_append] at hwords
  cases rest with
  | nil => rfl
  | cons m rest => cases m <;> simp [Message.words] at hwords

theorem served (hc : Decodes c rest) : Served c where
  once := (List.sublist_append_left _ _).subperm.trans hc.messages.subperm
  all := by
    intro hpipe hhalf
    have hmessages := hc.messages
    rwa [hc.rest_nil hpipe hhalf, List.append_nil] at hmessages
  executed := hc.executed

/-- A thread id at the end of the pipe. -/
theorem join (hc : Decodes c rest) (hpending : c.pending = []) {thread : ThreadPtr}
    (hthread : thread ≠ INVALID_THREAD_PTR) :
    Decodes { c with pipe := c.pipe ++ [thread], sent := c.sent ++ [.join thread] }
      (rest ++ [.join thread]) where
  messages := by
    rw [← List.append_assoc]
    exact hc.messages.append_right _
  valid := by
    intro m hm
    cases List.mem_append.mp hm with
    | inl hold => exact hc.valid m hold
    | inr hnew =>
        rw [List.mem_singleton.mp hnew]
        exact hthread
  words := by
    have hwords := hc.words
    rw [CommPipe.unfinished, if_pos hpending, List.append_nil] at hwords
    rw [CommPipe.unfinished, if_pos hpending, List.append_nil, List.flatMap_append, ← hwords,
      ← List.append_assoc]
    rfl
  single := hc.single
  executed := hc.executed

/-- The flag of a command at the end of the pipe. -/
theorem flag (hc : Decodes c rest) (hpending : c.pending = []) (writer : ℕ) (cmd : ThreadPtr) :
    Decodes { c with
      pipe := c.pipe ++ [INVALID_THREAD_PTR]
      pending := c.pending ++ [(writer, cmd)] } rest where
  messages := hc.messages
  valid := hc.valid
  words := by
    have hwords := hc.words
    rw [CommPipe.unfinished, if_pos hpending, List.append_nil] at hwords
    have hnew : c.pending ++ [(writer, cmd)] ≠ [] := by simp
    rw [CommPipe.unfinished, if_neg hnew, ← hwords, List.append_assoc]
    rfl
  single := by simp [hpending]
  executed := hc.executed

/-- The command behind its flag. -/
theorem command (hc : Decodes c rest) {p : ℕ × ThreadPtr}
    (hfind : c.pending.find? (·.1 = p.1) = some p) :
    Decodes { c with
      pipe := c.pipe ++ [p.2]
      pending := c.pending.filter (·.1 ≠ p.1)
      sent := c.sent ++ [.command p.2] } (rest ++ [.command p.2]) := by
  have hmem := List.mem_of_find?_eq_some hfind
  have hpending : c.pending = [p] := by
    have hsingle := hc.single
    cases hlist : c.pending with
    | nil => simp [hlist] at hmem
    | cons q qs =>
        rw [hlist, List.length_cons] at hsingle
        obtain rfl : qs = [] := List.eq_nil_of_length_eq_zero (by omega)
        rw [hlist] at hmem
        rw [List.mem_singleton.mp hmem]
  have hnone : c.pending.filter (·.1 ≠ p.1) = [] := by simp [hpending]
  refine ⟨?_, ?_, ?_, by simp [hpending], hc.executed⟩
  · rw [← List.append_assoc]
    exact hc.messages.append_right _
  · intro m hm
    cases List.mem_append.mp hm with
    | inl hold => exact hc.valid m hold
    | inr hnew =>
        rw [List.mem_singleton.mp hnew]
        trivial
  · have hwords := hc.words
    rw [CommPipe.unfinished, if_neg (by simp [hpending])] at hwords
    rw [CommPipe.unfinished, if_pos hnone, List.append_nil, List.flatMap_append,
      ← List.append_assoc]
    change (c.begun ++ c.pipe) ++ [p.2] = _
    rw [hwords, List.append_assoc]
    rfl

/-- One message less in the pipe, when all of its words were read. -/
theorem take {c' : CommPipe} {m : Message} (hc : Decodes c (m :: rest))
    (hread : c'.read.Perm (c.read ++ [m])) (hsent : c'.sent = c.sent)
    (hpending : c'.pending = c.pending) (hhalf : c'.half = false)
    (hpipe : c.begun ++ c.pipe = m.words ++ c'.pipe)
    (hexecuted : c'.reaping = false → c'.discarded = []) : Decodes c' rest where
  messages := by
    rw [hsent]
    refine List.Perm.trans ?_ hc.messages
    have happend := hread.append_right rest
    rwa [List.append_assoc, List.singleton_append] at happend
  valid := fun m' hm' => hc.valid m' (List.mem_cons_of_mem _ hm')
  words := by
    have hwords := hc.words
    rw [hpipe, List.flatMap_cons, List.append_assoc] at hwords
    rw [CommPipe.begun, hhalf, if_neg Bool.false_ne_true, CommPipe.unfinished, hpending]
    exact List.append_cancel_left hwords
  single := by
    rw [hpending]
    exact hc.single
  executed := hexecuted

end Decodes

/-- Reading a word takes the next message, or its flag. -/
theorem decodes_read {justDescribe : Bool} {c : CommPipe} {rest : List Message} {word : ThreadPtr}
    {words : List ThreadPtr} (hc : Decodes c rest) (hpipe : c.pipe = word :: words) :
    ∃ rest', Decodes ({ c with pipe := words }.readWord justDescribe word) rest' := by
  have hwords := hc.words
  rw [hpipe] at hwords
  unfold CommPipe.readWord
  cases hhalf : c.half with
  | false =>
      rw [CommPipe.begun, hhalf, if_neg Bool.false_ne_true, List.nil_append] at hwords
      simp only [Bool.false_eq_true, if_false]
      cases rest with
      | nil =>
          -- a command whose second word was not written yet
          rw [List.flatMap_nil, List.nil_append, CommPipe.unfinished] at hwords
          split_ifs at hwords with hpending
          obtain ⟨rfl, hnil⟩ := List.cons.inj hwords
          refine ⟨[], hc.messages, nofun, ?_, hc.single, hc.executed⟩
          rw [hnil]
          exact (if_neg hpending).symm
      | cons m rest =>
          cases m with
          | join thread =>
              have hthread : thread ≠ INVALID_THREAD_PTR := hc.valid _ (List.mem_cons_self ..)
              obtain ⟨rfl, hrest⟩ := List.cons.inj hwords
              rw [if_pos hthread]
              refine ⟨rest, hc.take ?_ rfl rfl rfl ?_ hc.executed⟩
              · change ((c.done ++ [Message.join word]) ++ c.discarded.map Message.command).Perm _
                rw [CommPipe.read, List.append_assoc, List.append_assoc]
                exact List.perm_append_comm.append_left _
              · rw [CommPipe.begun, hhalf, hpipe]
                rfl
          | command cmd =>
              obtain ⟨rfl, hrest⟩ := List.cons.inj hwords
              rw [if_neg (fun h => h rfl)]
              refine ⟨.command cmd :: rest, hc.messages, hc.valid, ?_, hc.single, hc.executed⟩
              change INVALID_THREAD_PTR :: words = INVALID_THREAD_PTR :: (cmd :: _) ++ _
              rw [hrest]
              rfl
  | true =>
      rw [CommPipe.begun, hhalf, if_pos rfl] at hwords
      simp only [if_true]
      cases rest with
      | nil =>
          rw [List.flatMap_nil, List.nil_append, CommPipe.unfinished] at hwords
          split_ifs at hwords
          · cases hwords
          · simp at hwords
      | cons m rest =>
          cases m with
          | join thread =>
              obtain ⟨heq, -⟩ := List.cons.inj hwords
              exact absurd heq.symm (hc.valid _ (List.mem_cons_self ..))
          | command cmd =>
              obtain ⟨-, hwords⟩ := List.cons.inj hwords
              obtain ⟨rfl, hrest⟩ := List.cons.inj hwords
              have hbegun : c.begun ++ c.pipe = (Message.command word).words ++ words := by
                rw [CommPipe.begun, hhalf, hpipe]
                rfl
              cases hreaping : c.reaping with
              | true =>
                  refine ⟨rest, hc.take ?_ rfl rfl rfl hbegun ?_⟩
                  · change (c.done ++ (c.discarded ++ [word]).map Message.command).Perm _
                    rw [List.map_append, ← List.append_assoc]
                    exact List.Perm.refl _
                  · intro h
                    simp at h
              | false =>
                  have hnone := hc.executed hreaping
                  refine ⟨rest, hc.take ?_ rfl rfl rfl hbegun fun _ => hnone⟩
                  change ((c.done ++ [Message.command word]) ++
                    c.discarded.map Message.command).Perm _
                  rw [CommPipe.read, hnone, List.map_nil, List.append_nil, List.append_nil]

theorem pipeStep_decodes {justDescribe : Bool} (c : CommPipe) (m : PipeMove) (c' : CommPipe)
    (u : Unit) (hc : ∃ rest, Decodes c rest) (hguard : KeepsCommands c m)
    (h : pipeStep justDescribe c m = some (c', u)) : ∃ rest, Decodes c' rest := by
  obtain ⟨rest, hc⟩ := hc
  cases m with
  | flag writer cmd =>
      simp only [pipeStep] at h
      split_ifs at h
      obtain ⟨rfl, -⟩ := Prod.mk.inj (Option.some.inj h)
      exact ⟨rest, hc.flag hguard writer cmd⟩
  | command writer =>
      obtain ⟨p, hfind, h⟩ := Option.map_eq_some_iff.mp h
      obtain ⟨rfl, -⟩ := Prod.mk.inj h
      have hwriter := List.find?_some hfind
      obtain rfl : p.1 = writer := of_decide_eq_true hwriter
      exact ⟨_, hc.command hfind⟩
  | join thread =>
      simp only [pipeStep] at h
      split_ifs at h with hthread
      obtain ⟨rfl, -⟩ := Prod.mk.inj (Option.some.inj h)
      exact ⟨_, hc.join hguard hthread⟩
  | read =>
      simp only [pipeStep] at h
      cases hpipe : c.pipe with
      | nil => simp [hpipe] at h
      | cons word words =>
          simp only [hpipe] at h
          obtain ⟨rfl, -⟩ := Prod.mk.inj (Option.some.inj h)
          exact decodes_read hc hpipe

/-- **Joins and commands are served** as they were sent in every run of the writers in which no
write comes between the two writes of a command. -/
theorem commands_served {justDescribe : Bool} {moves : List PipeMove} {c : CommPipe}
    {outputs : List Unit} (h : Transition.run (pipeStep justDescribe) .start moves = some (c, outputs))
    (hguard : Transition.Guarded (pipeStep justDescribe) KeepsCommands .start moves) : Served c := by
  have hstart : ∃ rest, Decodes CommPipe.start rest :=
    ⟨[], List.Perm.refl _, nofun, rfl, Nat.zero_le _, fun _ => rfl⟩
  obtain ⟨rest, hc⟩ := Transition.run_invariant pipeStep_decodes moves _ c outputs hstart hguard h
  exact hc.served

/-- A device is unplugged: its worker leaves, and its reader asks for a scan. -/
theorem commands_served_unplug : ∃ c outputs,
    Transition.run (pipeStep false) .start [.flag 0 SCAN_TRIGGER, .command 0, .read, .read,
      .join 0x7F01, .flag 1 SCAN_TRIGGER, .read, .command 1, .read, .read] = some (c, outputs) ∧
    Served c :=
  have hguard : Transition.Guarded (pipeStep false) KeepsCommands .start
      [.flag 0 SCAN_TRIGGER, .command 0, .read, .read, .join 0x7F01, .flag 1 SCAN_TRIGGER, .read,
        .command 1, .read, .read] := by decide
  ⟨_, _, rfl, commands_served rfl hguard⟩

/-- The worker's id comes between the two words of the reader's command: the id is taken for the
command, and the command for the id of a thread. -/
theorem commands_not_served : ∃ c outputs,
    Transition.run (pipeStep false) .start [.flag 0 SCAN_TRIGGER, .join 0x7F01, .command 0,
      .read, .read, .read] = some (c, outputs) ∧
    c.sent = [.join 0x7F01, .command SCAN_TRIGGER] ∧
    c.done = [.command 0x7F01, .join SCAN_TRIGGER] ∧ ¬Served c := by
  refine ⟨_, _, rfl, rfl, rfl, ?_⟩
  intro h
  have hmem := h.once.subset (List.mem_cons_self ..)
  exact absurd hmem (by decide)

end IguanaIR
