import Mathlib.Logic.Basic

/-!
# Commands of units (`userland/bin/init/service.c`)

Init is root, and `User=` and `Capability=` are there to confine what it runs for a unit.
`spawn_service` passes over a user that is not known and over ids that could not be changed.
`run_oneshot_command` never looks at `User=` and passes over a policy that was refused.
-/

namespace Spore.Init

/-- What `user_by_name` finds. -/
structure UserEntry where
  /-- The user's id. -/
  uid : UInt32
  /-- The id of the user's group. -/
  gid : UInt32

/-- The commands of a unit. -/
inductive Command where
  /-- `ExecStart=` -/
  | start
  /-- `ExecStartPre=` -/
  | startPre
  /-- `ExecStartPost=` -/
  | startPost
  /-- `ExecStop=` -/
  | stop
  /-- `ExecReload=` -/
  | reload
  deriving DecidableEq

/-- The fields of `struct unit` that say what runs and how it is confined. -/
structure ServiceUnit where
  /-- `User=`, empty when it is not set. -/
  user : String
  /-- `Capability=`, the name of a policy or empty. -/
  capability : String
  /-- The memory limit in pages, zero for none. -/
  memoryPages : Nat
  /-- `Type=oneshot`. -/
  oneshot : Bool
  /-- The command lines, empty where none is set. -/
  exec : Command → String

/-- What the system answers to init and its child. -/
structure Answers where
  /-- Nothing keeps init from starting a child: the rate limit, the pipe, `fork`. -/
  forks : Bool
  /-- The kernel accepts the policy. -/
  applyPolicy : String → Bool
  /-- The entry of a user name in the user database. -/
  userByName : String → Option UserEntry
  /-- `setgid` succeeds. -/
  setgid : Bool
  /-- `setuid` succeeds. -/
  setuid : Bool

/-- A child of init at `execvp`, with the policies that were applied to it. -/
structure Child where
  /-- The user id it runs with. -/
  uid : UInt32
  /-- The group id it runs with. -/
  gid : UInt32
  /-- The policies that confine it. -/
  policies : List String

/-- A child begins as init. -/
def Child.forked : Child := ⟨0, 0, []⟩

/-- `SYS_SPORE_APPLY_POLICY`, whatever it answers. -/
def Child.apply (child : Child) (answers : Answers) (policy : String) : Child :=
  if answers.applyPolicy policy then { child with policies := policy :: child.policies } else child

/-- `setgid` and `setuid`, whatever they answer. -/
def Child.become (child : Child) (answers : Answers) (entry : UserEntry) : Child :=
  { child with
    gid := if answers.setgid then entry.gid else child.gid
    uid := if answers.setuid then entry.uid else child.uid }

/-- `spawn_service`; none if the command is not executed. -/
def spawnService (unit : ServiceUnit) (answers : Answers) : Option Child :=
  if unit.exec .start = "" ∨ answers.forks = false then none
  else if unit.capability ≠ "" ∧ answers.applyPolicy unit.capability = false then none
  else
    let child :=
      if unit.capability ≠ "" then Child.forked.apply answers unit.capability
      else if unit.memoryPages ≠ 0 then
        Child.forked.apply answers ("mem:" ++ toString unit.memoryPages)
      else .forked
    if unit.user = "" then some child
    else some ((answers.userByName unit.user).elim child (child.become answers))

/-- `run_oneshot_command`; none if the command is not executed. -/
def runOneshotCommand (unit : ServiceUnit) (answers : Answers) (cmdline : String) : Option Child :=
  if cmdline = "" ∨ answers.forks = false then none
  else if unit.capability ≠ "" then some (Child.forked.apply answers unit.capability)
  else some .forked

/-- Only `ExecStart=` of a unit that is not a oneshot goes through `spawn_service`. -/
def ServiceUnit.Spawns (unit : ServiceUnit) (command : Command) : Prop :=
  command = .start ∧ unit.oneshot = false

instance (unit : ServiceUnit) (command : Command) : Decidable (unit.Spawns command) :=
  inferInstanceAs (Decidable (_ ∧ _))

/-- How `start_unit_name`, `stop_unit` and the reload request run a command. -/
def ServiceUnit.run (unit : ServiceUnit) (answers : Answers) (command : Command) : Option Child :=
  if unit.Spawns command then spawnService unit answers
  -- `start_unit_name` runs the post command in its branch for oneshot units only
  else if command = .startPost ∧ unit.oneshot = false then none
  else runOneshotCommand unit answers (unit.exec command)

/-- The child has the ids of the unit's user and the unit's policy. -/
def Child.Confined (child : Child) (unit : ServiceUnit) (answers : Answers) : Prop :=
  (unit.user ≠ "" → ∃ entry, answers.userByName unit.user = some entry ∧
    child.gid = entry.gid ∧ child.uid = entry.uid) ∧
  (unit.capability ≠ "" → unit.capability ∈ child.policies)

/-- The user is known and its ids are taken on, or are init's; the policy is accepted. -/
def ServiceUnit.Fits (unit : ServiceUnit) (answers : Answers) (command : Command) : Prop :=
  (unit.user ≠ "" → ∃ entry, answers.userByName unit.user = some entry ∧
    ((unit.Spawns command ∧ answers.setgid) ∨ entry.gid = 0) ∧
    ((unit.Spawns command ∧ answers.setuid) ∨ entry.uid = 0)) ∧
  (unit.capability ≠ "" → answers.applyPolicy unit.capability)

section

variable {answers : Answers} {policy : String}

/-- A policy leaves the group id of init. -/
@[simp] theorem forked_apply_gid : (Child.forked.apply answers policy).gid = 0 := by
  unfold Child.apply
  split <;> rfl

/-- A policy leaves the user id of init. -/
@[simp] theorem forked_apply_uid : (Child.forked.apply answers policy).uid = 0 := by
  unfold Child.apply
  split <;> rfl

/-- The child has the policy exactly when the kernel accepted it. -/
@[simp] theorem mem_forked_apply :
    policy ∈ (Child.forked.apply answers policy).policies ↔ answers.applyPolicy policy := by
  unfold Child.apply
  split <;> simp_all [Child.forked]

end

/-- A command that init executes is confined exactly under the condition. -/
theorem command_confined_iff (unit : ServiceUnit) (answers : Answers) (command : Command)
    (child : Child) (runs : unit.run answers command = some child) :
    child.Confined unit answers ↔ unit.Fits answers command := by
  unfold ServiceUnit.run at runs
  split at runs
  · rename_i spawns
    unfold spawnService at runs
    simp only [Child.Confined, ServiceUnit.Fits, spawns]
    grind [Child.become, Child.forked, forked_apply_gid, forked_apply_uid, mem_forked_apply]
  split at runs
  · cases runs
  · rename_i oneshot _
    unfold runOneshotCommand at runs
    simp only [Child.Confined, ServiceUnit.Fits, oneshot]
    grind [Child.forked, forked_apply_gid, forked_apply_uid, mem_forked_apply]

/-- A service with a user and a policy. -/
def webUnit : ServiceUnit := ⟨"web", "net", 0, false, fun _ => "/bin/web"⟩

/-- Every call succeeds, and every user name is that of user 7. -/
def webAnswers : Answers := ⟨true, fun _ => true, fun _ => some ⟨7, 7⟩, true, true⟩

/-- Its `ExecStart=` runs as that user under its policy. -/
theorem web_start_confined : (Child.mk 7 7 ["net"]).Confined webUnit webAnswers :=
  (command_confined_iff _ _ .start _ rfl).mpr
    ⟨fun _ => ⟨_, rfl, .inl ⟨⟨rfl, rfl⟩, rfl⟩, .inl ⟨⟨rfl, rfl⟩, rfl⟩⟩, fun _ => rfl⟩

/-- Its `ExecStop=` is executed as root. -/
theorem web_stop_not_confined :
    ∃ child, webUnit.run webAnswers .stop = some child ∧ ¬ child.Confined webUnit webAnswers := by
  refine ⟨⟨0, 0, ["net"]⟩, rfl, fun confined => ?_⟩
  obtain ⟨entry, known, same, -⟩ := confined.1 (by decide)
  cases known
  exact absurd same (by decide)

end Spore.Init
