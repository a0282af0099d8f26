import ContainerJobs.Engine.Dialogue
import ContainerJobs.Text.Utf8

/-!
# Engines behind a program

An engine can be a program: it is started for each command with the arguments of
the command, it is given nothing to read, and what it writes and how it ends is
the reply. What the programs of a system do is the system's own affair, so any
system will do here. Only a program that cannot be started is an engine that
cannot be reached.
-/

namespace ContainerJobs

namespace Program

/-- How a program ends. -/
inductive Ending where
  /-- With a status of its own. -/
  | status (code : UInt8)
  /-- By a signal. -/
  | signal (number : Nat)
deriving DecidableEq, Repr

/-- What is left of a program that has ended. -/
structure Remains where
  /-- The bytes of its standard output. -/
  output : List UInt8 := []
  /-- The bytes of its standard error output. -/
  errors : List UInt8 := []
  /-- How it ended. -/
  ending : Ending
deriving DecidableEq, Repr

/-- A system with states in `σ`: what is left of the program of a name once it has been
    started with some arguments, or why it cannot be started. -/
abbrev System (σ : Type) := String → List String → σ → Except SystemError Remains × σ

/-- A system cannot be told a text with a zero byte. -/
def hasZeroByte (s : String) : Bool :=
  s.toList.contains '\x00'

/-- The exit code that an ending is told as. -/
def Ending.exitCode : Ending → Int
  | .status code => code.toNat
  | .signal _ => -1

/-- No status is told as a signal is. -/
theorem Ending.exitCode_eq_neg_one_iff {d : Ending} :
    d.exitCode = -1 ↔ ∃ n, d = .signal n := by
  cases d with
  | status code => simp [exitCode]
  | signal n => simp [exitCode]

/-- The reply that a program makes. What it writes need not be text. -/
def Remains.reply (r : Remains) : Reply where
  stdout := Text.lossy r.output
  stderr := Text.lossy r.errors
  exitCode := r.ending.exitCode

/-- A program succeeds with the status 0 alone. -/
theorem Remains.isSuccess_reply_iff {r : Remains} :
    r.reply.isSuccess ↔ r.ending = .status 0 := by
  obtain ⟨output, errors, ending⟩ := r
  cases ending with
  | status code =>
    simp only [Reply.isSuccess, reply, Ending.exitCode, beq_iff_eq, Ending.status.injEq]
    rw [← UInt8.toNat_inj]
    exact Int.natCast_eq_zero
  | signal n => simp [Reply.isSuccess, reply, Ending.exitCode]

/-- The engine behind the program `name` of a system. A command that the system
    cannot be told is refused before the system is asked. -/
def engine {σ : Type} (system : System σ) (name : String) : Engine σ := fun args s =>
  if (name :: args).any hasZeroByte then (.error (.ofCommand name args .zeroByte), s)
  else
    let (r, s) := system name args s
    (match r with
      | .error e => .error (.ofCommand name args (.system e))
      | .ok r => .ok r.reply, s)

section Engine

variable {σ α : Type} {system : System σ} {name : String} {args : Command} {s : σ}

/-- There is a reply exactly if the system can be told the command and starts the
    program, and it is the reply of the program. -/
theorem engine_eq_ok_iff {reply : Reply} :
    (engine system name args s).1 = .ok reply ↔
      (∀ t ∈ name :: args, '\x00' ∉ t.toList) ∧
        ∃ r, (system name args s).1 = .ok r ∧ r.reply = reply := by
  have told : (name :: args).any hasZeroByte = false ↔
      ∀ t ∈ name :: args, '\x00' ∉ t.toList := by
    simp [hasZeroByte]
  rw [← told]
  unfold engine
  cases h : (name :: args).any hasZeroByte with
  | true => simp
  | false => cases hr : (system name args s).1 <;> simp [hr]

/-- A command succeeds exactly if the program is started and ends with the status 0. -/
theorem engine_isSuccess_iff :
    (∃ reply, (engine system name args s).1 = .ok reply ∧ reply.isSuccess) ↔
      (∀ t ∈ name :: args, '\x00' ∉ t.toList) ∧
        ∃ r, (system name args s).1 = .ok r ∧ r.ending = .status 0 := by
  simp only [engine_eq_ok_iff, ← Remains.isSuccess_reply_iff]
  constructor
  · rintro ⟨_, ⟨told, r, hr, rfl⟩, success⟩
    exact ⟨told, r, hr, success⟩
  · rintro ⟨told, r, hr, success⟩
    exact ⟨_, ⟨told, r, hr, rfl⟩, success⟩

/-- Whatever is asked of a program that the system cannot be told the name of, the
    system stays as it is. -/
theorem run_engine_of_hasZeroByte (h : hasZeroByte name) (d : Dialogue α) (lock : StartLock) :
    (d.run (engine system name) s lock).engine = s := by
  induction d generalizing lock with
  | done a => rfl
  | ask c next ih => simp [Dialogue.run, engine, h, ih]
  | acquire n next ih =>
    simp only [Dialogue.run]
    split <;> exact ih _ _
  | release g next ih => exact ih _

end Engine

end Program

end ContainerJobs
