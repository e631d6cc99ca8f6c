import MinimalVm.Agent.Process
import MinimalVm.Protocol.Message
import MinimalVm.Semantics.Fallible

/-! How the agent starts a child, and under whose identity.

An agent that is root looks up the account of the request before it starts
anything. Between the fork and the execution of a program the child takes on the
identity of the account, the right to do so last. An agent that is not root keeps
to its own identity. What the system answers is a parameter.
-/

set_option autoImplicit false

namespace MinimalVm.Agent

open MinimalVm.Semantics MinimalVm.Protocol

structure Errno where
  text : String
  deriving DecidableEq, Repr

structure User where
  name : String
  uid : UInt32
  gid : UInt32
  dir : String
  deriving DecidableEq, Repr

structure Credentials where
  uid : UInt32
  gid : UInt32
  groups : List UInt32
  deriving DecidableEq, Repr

/-- The calls by which a process changes its identity. -/
inductive IdentityCall where
  | setgroups (groups : List UInt32)
  | setgid (gid : UInt32)
  | setuid (uid : UInt32)

namespace IdentityCall

def name : IdentityCall → String
  | setgroups _ => "setgroups"
  | setgid _ => "setgid"
  | setuid _ => "setuid"

def assign : IdentityCall → Credentials → Credentials
  | setgroups groups, held => { held with groups }
  | setgid gid, held => { held with gid }
  | setuid uid, held => { held with uid }

end IdentityCall

structure Command where
  prog : String
  args : List String
  env : List (String × String)
  currentDir : String
  preExec : Option User
  deriving DecidableEq, Repr

structure Program where
  credentials : Credentials
  command : Command
  deriving DecidableEq, Repr

/-- The credentials of the agent and the answers it gets. -/
structure System where
  credentials : Credentials
  currentDir : Except IoError String
  fromName : String → Except Errno (Option User)
  fork : Except IoError UInt32
  chdir : Credentials → String → Except IoError Unit
  refusal : Credentials → IdentityCall → Option Errno
  exec : Program → Except IoError Unit

inductive SpawnError where
  | currentDir (cause : IoError)
  | lookup (cause : Errno)
  | unknownUser (name : String)
  | command (cause : IoError)
  deriving DecidableEq, Repr

/-- The text of an error, given how a name is quoted. -/
def SpawnError.message (debug : String → String) : SpawnError → String
  | currentDir _ => "Failed to get current directory"
  | lookup cause => cause.text
  | unknownUser name => "unknown user: " ++ debug name
  | command _ => "Failed to spawn child process"

namespace System

def isRoot (this : System) : Bool := this.credentials.uid == 0

def lookUp (this : System) (name : String) : Except SpawnError User :=
  match this.fromName name with
  | .error cause => .error (.lookup cause)
  | .ok none => .error (.unknownUser name)
  | .ok (some user) => .ok user

def request (this : System) (call : IdentityCall) (held : Credentials) : Except IoError Credentials :=
  match this.refusal held call with
  | some errno => .error ⟨call.name ++ " failed: " ++ errno.text⟩
  | none => .ok (call.assign held)

/-- The hook that runs in the child before a program is executed. -/
def assume (this : System) (target : User) (held : Credentials) : Except IoError Credentials := do
  let held ← this.request (.setgroups []) held
  let held ← this.request (.setgid target.gid) held
  this.request (.setuid target.uid) held

def runHook (this : System) (command : Command) : Except IoError Credentials :=
  match command.preExec with
  | some target => this.assume target this.credentials
  | none => .ok this.credentials

/-- What the child does after the fork. -/
def runChild (this : System) (command : Command) : Except IoError Program := do
  this.chdir this.credentials command.currentDir
  let held ← this.runHook command
  this.exec ⟨held, command⟩
  pure ⟨held, command⟩

end System

/-- What a spawn returns, and the program that the child executes. -/
structure Spawn (ε : Type) where
  result : Except ε UInt32
  executed : Option Program

/-- A child that cannot get as far as its program reports why, and exits. -/
def Command.spawn (this : Command) (system : System) : Spawn IoError :=
  match system.fork with
  | .error error => ⟨.error error, none⟩
  | .ok pid =>
    match system.runChild this with
    | .error error => ⟨.error error, none⟩
    | .ok program => ⟨.ok pid, some program⟩

def selectUser (system : System) (exec : Exec) : Except SpawnError (Option User) :=
  if system.isRoot then
    match exec.user with
    | none => some <$> system.lookUp "user"
    | some user => some <$> system.lookUp user
  else .ok none

/-- The account whose identity differs from the agent's. -/
def targetUser (system : System) (selected : Option User) : Option User :=
  selected.filter fun user => user.uid != system.credentials.uid

def buildCommand (system : System) (exec : Exec) (pwd : String) (selected : Option User) : Command :=
  let command : Command :=
    match targetUser system selected with
    -- A login shell sets up the environment of the account, and then gives way
    -- to the program that was asked for.
    | some target =>
      { prog := "bash"
        args := ["-l", "-c", "exec -- \"$@\"", "bash", exec.prog] ++ exec.args
        env := [("HOME", target.dir), ("USER", target.name)]
        currentDir := pwd
        preExec := none }
    | none => { prog := exec.prog, args := exec.args, env := [], currentDir := pwd, preExec := none }
  { command with preExec := targetUser system selected }

def spawn (system : System) (exec : Exec) : Spawn SpawnError :=
  match exec.pwd.map .ok |>.getD system.currentDir with
  | .error cause => ⟨.error (.currentDir cause), none⟩
  | .ok pwd =>
    match selectUser system exec with
    | .error error => ⟨.error error, none⟩
    | .ok selected =>
      let spawned := (buildCommand system exec pwd selected).spawn system
      ⟨spawned.result.mapError .command, spawned.executed⟩

/-! ## The identity of a child -/

namespace System

variable {system : System} {target : User} {held : Credentials}

/-- One of the calls that lead to an identity is refused when its turn comes. -/
def Refuses (system : System) (target : User) (held : Credentials) : Prop :=
  system.refusal held (.setgroups []) ≠ none ∨
    system.refusal ⟨held.uid, held.gid, []⟩ (.setgid target.gid) ≠ none ∨
    system.refusal ⟨held.uid, target.gid, []⟩ (.setuid target.uid) ≠ none

theorem request_ok {call : IdentityCall} {after : Credentials} (granted : system.request call held = .ok after) :
    system.refusal held call = none ∧ after = call.assign held := by
  unfold request at granted
  split at granted
  · cases granted
  · exact ⟨‹_›, (Except.ok.inj granted).symm⟩

theorem assume_ok {after : Credentials} (assumed : system.assume target held = .ok after) :
    ¬ system.Refuses target held ∧ after = ⟨target.uid, target.gid, []⟩ := by
  unfold assume at assumed
  obtain ⟨held₁, cleared, assumed⟩ := bind_eq_ok.mp assumed
  obtain ⟨held₂, grouped, assumed⟩ := bind_eq_ok.mp assumed
  obtain ⟨clears, rfl⟩ := request_ok cleared
  obtain ⟨groups, rfl⟩ := request_ok grouped
  obtain ⟨becomes, rfl⟩ := request_ok assumed
  refine ⟨?_, rfl⟩
  rintro (refused | refused | refused)
  · exact refused clears
  · exact refused groups
  · exact refused becomes

theorem runChild_ok {command : Command} {program : Program} (ran : system.runChild command = .ok program) :
    match command.preExec with
    | some target => ¬ system.Refuses target system.credentials ∧ program.credentials = ⟨target.uid, target.gid, []⟩
    | none => program.credentials = system.credentials := by
  unfold runChild at ran
  obtain ⟨_, moved, ran⟩ := bind_eq_ok.mp ran
  obtain ⟨held, hooked, ran⟩ := bind_eq_ok.mp ran
  obtain ⟨_, executed, same⟩ := bind_eq_ok.mp ran
  cases same
  unfold runHook at hooked
  split at hooked
  · exact assume_ok hooked
  · exact (Except.ok.inj hooked).symm

theorem lookUp_ok {name : String} {user : User} (found : system.lookUp name = .ok user) :
    system.fromName name = .ok (some user) := by
  unfold lookUp at found
  split at found
  · cases found
  · cases found
  · cases found
    assumption

end System

theorem spawn_executes {command : Command} {system : System} {pid : UInt32}
    (spawned : (command.spawn system).result = .ok pid) :
    ∃ program, (command.spawn system).executed = some program ∧ system.runChild command = .ok program := by
  unfold Command.spawn at spawned ⊢
  split at spawned
  · cases spawned
  · split at spawned
    · cases spawned
    · rename_i program ran
      exact ⟨program, rfl, ran⟩

theorem spawn_fails {command : Command} {system : System} {error : IoError}
    (failed : (command.spawn system).result = .error error) : (command.spawn system).executed = none := by
  unfold Command.spawn at failed ⊢
  split at failed
  · rfl
  · split at failed
    · rfl
    · cases failed

@[simp] theorem buildCommand_preExec (system : System) (exec : Exec) (pwd : String) (selected : Option User) :
    (buildCommand system exec pwd selected).preExec = targetUser system selected := rfl

/-- The account a request asks for. -/
def account (exec : Exec) : String := exec.user.getD "user"

theorem selectUser_root {system : System} (root : system.isRoot = true) (exec : Exec) :
    selectUser system exec = some <$> system.lookUp (account exec) := by
  unfold selectUser account
  rw [if_pos root]
  cases exec.user <;> rfl

theorem selectUser_other {system : System} (other : system.isRoot = false) (exec : Exec) :
    selectUser system exec = .ok none := by
  unfold selectUser
  rw [if_neg (Bool.eq_false_iff.mp other)]

theorem spawn_ok {system : System} {exec : Exec} {pid : UInt32} (spawned : (spawn system exec).result = .ok pid) :
    ∃ pwd selected program, selectUser system exec = .ok selected ∧ (spawn system exec).executed = some program ∧
      system.runChild (buildCommand system exec pwd selected) = .ok program := by
  unfold spawn at spawned ⊢
  split at spawned
  · cases spawned
  · rename_i pwd located
    split at spawned
    · cases spawned
    · rename_i selected selects
      obtain ⟨program, executed, ran⟩ := spawn_executes (mapError_eq_ok.mp spawned)
      rw [selects]
      exact ⟨pwd, selected, program, rfl, executed, ran⟩

theorem spawn_error {system : System} {exec : Exec} {error : SpawnError}
    (failed : (spawn system exec).result = .error error) : (spawn system exec).executed = none := by
  unfold spawn at failed ⊢
  split at failed
  · rfl
  · rename_i pwd located
    split at failed
    · rfl
    · rename_i selected selects
      have fails : ∀ pid, ((buildCommand system exec pwd selected).spawn system).result ≠ .ok pid := by
        intro pid succeeded
        cases (mapError_eq_ok.mpr succeeded).symm.trans failed
      obtain ⟨cause, failed⟩ := not_ok fails
      exact spawn_fails failed

theorem spawn_root {system : System} {exec : Exec} {pid : UInt32} (root : system.isRoot = true)
    (spawned : (spawn system exec).result = .ok pid) :
    ∃ user program, system.fromName (account exec) = .ok (some user) ∧
      (spawn system exec).executed = some program ∧
      (user.uid = system.credentials.uid → program.credentials = system.credentials) ∧
      (user.uid ≠ system.credentials.uid →
        ¬ system.Refuses user system.credentials ∧ program.credentials = ⟨user.uid, user.gid, []⟩) := by
  obtain ⟨pwd, selected, program, selects, executed, ran⟩ := spawn_ok spawned
  rw [selectUser_root root] at selects
  obtain ⟨user, found, rfl⟩ := map_eq_ok.mp selects
  refine ⟨user, program, System.lookUp_ok found, executed, fun same => ?_, fun apart => ?_⟩
  · have none : targetUser system (some user) = none := by simp [targetUser, Option.filter, same]
    have identity := System.runChild_ok ran
    rw [buildCommand_preExec, none] at identity
    exact identity
  · have some : targetUser system (some user) = some user := by simp [targetUser, Option.filter, apart]
    have identity := System.runChild_ok ran
    rw [buildCommand_preExec, some] at identity
    exact identity

theorem spawn_other {system : System} {exec : Exec} {pid : UInt32} (other : system.isRoot = false)
    (spawned : (spawn system exec).result = .ok pid) :
    ∃ program, (spawn system exec).executed = some program ∧ program.credentials = system.credentials := by
  obtain ⟨pwd, selected, program, selects, executed, ran⟩ := spawn_ok spawned
  rw [selectUser_other other] at selects
  cases selects
  exact ⟨program, executed, System.runChild_ok ran⟩

theorem spawn_account {system : System} (other : system.isRoot = false) (exec : Exec) (user : Option String) :
    spawn system { exec with user } = spawn system exec := by
  unfold spawn
  rw [selectUser_other other, selectUser_other other]
  rfl

/-- The child of a root agent runs under the account that was asked for, which
is `user` by default, and nothing is executed if there is no such account or its
identity is refused. The child of any other agent runs as the agent does,
whatever account is asked for. -/
theorem child_identity (system : System) (exec : Exec) :
    (system.isRoot = true →
      (∀ pid, (spawn system exec).result = .ok pid →
        ∃ user program, system.fromName (account exec) = .ok (some user) ∧
          (spawn system exec).executed = some program ∧ program.credentials.uid = user.uid ∧
          (user.uid ≠ system.credentials.uid →
            program.credentials.gid = user.gid ∧ program.credentials.groups = []) ∧
          (user.uid = system.credentials.uid → program.credentials = system.credentials)) ∧
      ((∀ user, system.fromName (account exec) ≠ .ok (some user)) ∨
        (∃ user, system.fromName (account exec) = .ok (some user) ∧ user.uid ≠ system.credentials.uid ∧
          system.Refuses user system.credentials) →
        (∃ error, (spawn system exec).result = .error error) ∧ (spawn system exec).executed = none)) ∧
    (system.isRoot = false →
      (∀ user, spawn system { exec with user } = spawn system exec) ∧
      ∀ pid, (spawn system exec).result = .ok pid →
        ∃ program, (spawn system exec).executed = some program ∧ program.credentials = system.credentials) := by
  refine ⟨fun root => ⟨fun pid spawned => ?_, fun refused => ?_⟩,
    fun other => ⟨spawn_account other exec, fun pid => spawn_other other⟩⟩
  · obtain ⟨user, program, found, executed, same, apart⟩ := spawn_root root spawned
    refine ⟨user, program, found, executed, ?_, fun differs => ?_, same⟩
    · by_cases equal : user.uid = system.credentials.uid
      · rw [same equal, equal]
      · rw [(apart equal).2]
    · rw [(apart differs).2]
      exact ⟨rfl, rfl⟩
  · have fails : ∀ pid, (spawn system exec).result ≠ .ok pid := by
      intro pid spawned
      obtain ⟨user, program, found, -, -, apart⟩ := spawn_root root spawned
      rcases refused with unknown | ⟨other, named, differs, refuses⟩
      · exact unknown user found
      · cases found.symm.trans named
        exact (apart differs).1 refuses
    obtain ⟨error, failed⟩ := not_ok fails
    exact ⟨⟨error, failed⟩, spawn_error failed⟩

/-- Two accounts, the second of which is another name for root. -/
def accounts : List User := [⟨"user", 1000, 100, "/home/user"⟩, ⟨"toor", 0, 1, "/root"⟩]

def permissive (credentials : Credentials) : System where
  credentials := credentials
  currentDir := .ok "/"
  fromName name := .ok (accounts.find? fun user => user.name == name)
  fork := .ok 7
  chdir _ _ := .ok ()
  refusal _ _ := none
  exec _ := .ok ()

def identify (user : Option String) : Exec := ⟨"id", [], none, user, none⟩

theorem child_identity_user :
    ∃ program, (spawn (permissive ⟨0, 0, [0]⟩) (identify none)).executed = some program ∧
      program.credentials.gid = 100 ∧ program.credentials.groups = [] := by
  have spawned : (spawn (permissive ⟨0, 0, [0]⟩) (identify none)).result = .ok 7 := rfl
  obtain ⟨user, program, found, executed, -, apart, -⟩ :=
    ((child_identity (permissive ⟨0, 0, [0]⟩) (identify none)).1 rfl).1 7 spawned
  have same : (⟨"user", 1000, 100, "/home/user"⟩ : User) = user := Option.some.inj (Except.ok.inj found)
  subst same
  exact ⟨program, executed, apart (by decide)⟩

/-- An agent that is not root ignores the account, known or not, and a root
agent does not give up its own group for another name of root. -/
theorem child_identity_kept :
    (∃ program, spawn (permissive ⟨1001, 100, []⟩) (identify (some "user")) = ⟨.ok 7, some program⟩ ∧
      (permissive ⟨1001, 100, []⟩).fromName "user" = .ok (some ⟨"user", 1000, 100, "/home/user"⟩) ∧
      program.credentials.uid ≠ 1000) ∧
    (∃ program, spawn (permissive ⟨1001, 100, []⟩) (identify (some "nobody")) = ⟨.ok 7, some program⟩ ∧
      (permissive ⟨1001, 100, []⟩).fromName "nobody" = .ok none) ∧
    ∃ program, spawn (permissive ⟨0, 0, [0]⟩) (identify (some "toor")) = ⟨.ok 7, some program⟩ ∧
      (permissive ⟨0, 0, [0]⟩).fromName "toor" = .ok (some ⟨"toor", 0, 1, "/root"⟩) ∧
      program.credentials.gid ≠ 1 := by
  exact ⟨⟨_, rfl, rfl, by decide⟩, ⟨_, rfl, rfl⟩, ⟨_, rfl, rfl, by decide⟩⟩

end MinimalVm.Agent
