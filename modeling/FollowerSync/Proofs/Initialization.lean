import FollowerSync.Command.Run
import FollowerSync.Proofs.Histories
import FollowerSync.Proofs.WrittenConfigurations

set_option autoImplicit false

namespace FollowerSync.Command

variable {output node path text : String} {bytes : Config.FileBytes} {es : History machine}
  {ending : Ending}

def said (line : String) : Event machine := ⟨.say line, ()⟩

theorem runs_ask_iff {α : Type} {c : Call} {next : c.Reply → Act α} {a : α} :
    Runs (ask c >>= next) es a ↔ ∃ r rest, es = ⟨c, r⟩ :: rest ∧ Runs (next r) rest a :=
  Runs.call_iff

theorem runs_say_iff {α : Type} {line : String} {next : Unit → Act α} {a : α} :
    Runs (say line >>= next) es a ↔ ∃ rest, es = said line :: rest ∧ Runs (next ()) rest a := by
  rw [say, runs_ask_iff]
  exact ⟨fun ⟨⟨⟩, rest, same, runs⟩ => ⟨rest, same, runs⟩,
    fun ⟨rest, same, runs⟩ => ⟨(), rest, same, runs⟩⟩

theorem runs_pure_iff {α : Type} {a b : α} : Runs (pure a : Act α) es b ↔ es = [] ∧ b = a :=
  Runs.done_iff

theorem runs_init_done_iff : Runs (init output node) es .done ↔
    ∃ text, (Config.forNode node).render = .ok text ∧
      es = [⟨.pathExists output, false⟩, ⟨.writeFile output text, .ok ()⟩,
        said ("Configuration written to " ++ output)] := by
  obtain ⟨text, written⟩ := Config.forNode_written node
  have rendered := Config.render_forNode written
  rw [init, rendered, runs_ask_iff]
  constructor
  · rintro ⟨found, rest, rfl, runs⟩
    cases found with
    | true => cases (runs_pure_iff.mp runs).2
    | false =>
      obtain ⟨result, later, rfl, writes⟩ := runs_ask_iff.mp runs
      cases result with
      | error reason => cases (runs_pure_iff.mp writes).2
      | ok =>
        obtain ⟨last, rfl, ends⟩ := runs_say_iff.mp writes
        obtain ⟨rfl, -⟩ := runs_pure_iff.mp ends
        exact ⟨text, rfl, rfl⟩
  · rintro ⟨_, ⟨⟩, rfl⟩
    exact ⟨false, _, rfl, runs_ask_iff.mpr ⟨.ok (), _, rfl,
      runs_say_iff.mpr ⟨_, rfl, runs_pure_iff.mpr ⟨rfl, rfl⟩⟩⟩⟩

def tell {α : Type} (p : Act α) : List String → Act α
  | [] => p
  | line :: lines => say line >>= fun _ => tell p lines

theorem runs_tell_iff {α : Type} {p : Act α} {lines : List String} {a : α} :
    Runs (tell p lines) es a ↔ ∃ rest, es = lines.map said ++ rest ∧ Runs p rest a := by
  induction lines generalizing es with
  | nil => simp [tell]
  | cons line lines ih =>
    rw [tell, runs_say_iff]
    constructor
    · rintro ⟨later, rfl, tells⟩
      obtain ⟨rest, rfl, runs⟩ := ih.mp tells
      exact ⟨rest, rfl, runs⟩
    · rintro ⟨rest, rfl, runs⟩
      exact ⟨_, rfl, ih.mpr ⟨rest, rfl, runs⟩⟩

def report (config : Config) (settings : Settings) (budget : Duration) : List String :=
  ["Configuration is valid",
    "  Node ID: " ++ config.node.id ++ " (reboot " ++
      Numeric.digitsText config.node.rebootId.toNat ++ ")",
    "  Soft lock: " ++ Numeric.digitsText settings.softLockMaxRounds.toNat ++ " rounds of " ++
      settings.softLockTimeout.text ++ ", catch-up budget " ++ budget.text,
    "  Hard lock: " ++ settings.hardLockTimeout.text,
    "  Attempt timeout: " ++ ((settings.attemptTimeout.map Duration.text).getD "none"),
    "  Requeue threshold: " ++ Numeric.digitsText settings.requeueDocDiffThreshold.toNat ++
      " documents"]

theorem runs_validate_of_error {fault : Fault} (refused : Config.load bytes = .error fault) :
    Runs (validate path) (⟨.readFile path, bytes⟩ :: es) ending ↔
      es = ([] : List String).map said ∧
        ending = .failed (failing ("invalid configuration in " ++ path) fault) := by
  rw [validate, runs_ask_iff]
  constructor
  · rintro ⟨_, _, ⟨⟩, runs⟩
    rw [refused] at runs
    exact runs_pure_iff.mp runs
  · intro ended
    refine ⟨_, _, rfl, ?_⟩
    rw [refused]
    exact runs_pure_iff.mpr ended

theorem runs_validate_of_ok {config : Config} {settings : Settings} {budget : Duration}
    (loaded : Config.load bytes = .ok config) (resolved : config.settings? = some settings)
    (budgeted : settings.softCatchUpBudget? = some budget) :
    Runs (validate path) (⟨.readFile path, bytes⟩ :: es) ending ↔
      es = (report config settings budget).map said ∧ ending = .done := by
  have tells : Runs (tell (pure .done) (report config settings budget)) es ending ↔
      es = (report config settings budget).map said ∧ ending = .done := by
    simp [runs_tell_iff]
  rw [← tells, validate, runs_ask_iff]
  constructor
  · rintro ⟨_, _, ⟨⟩, runs⟩
    simp only [loaded, resolved, budgeted] at runs
    exact runs
  · intro runs
    refine ⟨_, _, rfl, ?_⟩
    simp only [loaded, resolved, budgeted]
    exact runs

/-- Wherever the file is read, the text is found in it. -/
def Finds (path text : String) (es : History machine) : Prop :=
  ∀ bytes, (⟨.readFile path, bytes⟩ : Event machine) ∈ es → bytes = .ok text.toUTF8.data.toList

theorem finds_said (path text : String) (lines : List String) :
    Finds path text (lines.map said) := by
  intro bytes mem
  obtain ⟨line, -, same⟩ := List.mem_map.mp mem
  cases congrArg Event.call same

theorem finds_cons_iff : Finds path text (⟨.readFile path, bytes⟩ :: es) ↔
    bytes = .ok text.toUTF8.data.toList ∧ Finds path text es := by
  constructor
  · intro finds
    exact ⟨finds _ List.mem_cons_self, fun _ mem => finds _ (List.mem_cons_of_mem _ mem)⟩
  · rintro ⟨rfl, finds⟩ _ mem
    rcases List.mem_cons.mp mem with same | mem
    · cases same
      rfl
    · exact finds _ mem

theorem runs_run_init_iff {config : String} {json : Bool} :
    Runs (run ⟨config, json, .init output node⟩) es ending ↔
      ∃ found rest, es = ⟨.readFile config, found⟩ :: rest ∧ Runs (init output node) rest ending :=
  runs_ask_iff

theorem runs_run_validate_iff {json : Bool} :
    Runs (run ⟨path, json, .validate⟩) es ending ↔
      ∃ found rest, es = ⟨.readFile path, found⟩ :: rest ∧ Runs (validate path) rest ending :=
  runs_ask_iff

/-- How the check of a file that holds the text ends. -/
theorem validates_iff {json : Bool} {lines : List String} {verdict : Ending}
    (checked : ∀ es ending,
      Runs (validate path) (⟨.readFile path, .ok text.toUTF8.data.toList⟩ :: es) ending ↔
        es = lines.map said ∧ ending = verdict) :
    (∃ es, Runs (run ⟨path, json, .validate⟩) es ending ∧ Finds path text es) ↔
      ending = verdict := by
  constructor
  · rintro ⟨es, runs, finds⟩
    obtain ⟨first, later, rfl, validates⟩ := runs_run_validate_iff.mp runs
    obtain ⟨second, rest, rfl, -⟩ := runs_ask_iff.mp validates
    obtain ⟨-, finds⟩ := finds_cons_iff.mp finds
    obtain ⟨rfl, -⟩ := finds_cons_iff.mp finds
    exact ((checked rest ending).mp validates).2
  · rintro rfl
    have validates := (checked (lines.map said) ending).mpr ⟨rfl, rfl⟩
    exact ⟨_, runs_run_validate_iff.mpr ⟨.ok text.toUTF8.data.toList, _, rfl, validates⟩,
      finds_cons_iff.mpr ⟨rfl, finds_cons_iff.mpr ⟨rfl, finds_said path text lines⟩⟩⟩

theorem init_writes (config : String) (json : Bool)
    (rendered : (Config.forNode node).render = .ok text) :
    ∃ es, Runs (run ⟨config, json, .init output node⟩) es .done ∧
      ⟨.writeFile output text, .ok ()⟩ ∈ es := by
  have inits : Runs (init output node) _ .done := runs_init_done_iff.mpr ⟨text, rendered, rfl⟩
  exact ⟨_, runs_run_init_iff.mpr ⟨.error "no such file", _, rfl, inits⟩,
    .tail _ (.tail _ (.head _))⟩

/-- What was written for a server is read back with the defaults, and the check of the file passes
for every server that has a name. -/
theorem validates_what_init_wrote {config : String} {json : Bool}
    (wrote : Runs (run ⟨config, json, .init output node⟩) es .done) :
    ∃ found text, es = [⟨.readFile config, found⟩, ⟨.pathExists output, false⟩,
        ⟨.writeFile output text, .ok ()⟩, said ("Configuration written to " ++ output)] ∧
      Config.load (.ok text.toUTF8.data.toList) =
        (if node = "" then .error (.config "node.id cannot be empty")
          else .ok (Config.forNode node)) ∧
      ∀ json' ending,
        (∃ later, Runs (run ⟨output, json', .validate⟩) later ending ∧ Finds output text later) ↔
          ending = if node = "" then
            .failed (failing ("invalid configuration in " ++ output)
              (.config "node.id cannot be empty"))
          else .done := by
  obtain ⟨found, rest, rfl, inits⟩ := runs_run_init_iff.mp wrote
  obtain ⟨text, rendered, rfl⟩ := runs_init_done_iff.mp inits
  have loaded := Config.load_forNode rendered
  refine ⟨found, text, rfl, loaded, fun json' ending => ?_⟩
  by_cases nobody : node = ""
  · rw [if_pos nobody] at loaded ⊢
    exact validates_iff fun _ _ => runs_validate_of_error loaded
  · rw [if_neg nobody] at loaded ⊢
    obtain ⟨settings, budget, resolved, budgeted⟩ := Config.forNode_resolved node
    exact validates_iff fun _ _ => runs_validate_of_ok loaded resolved budgeted

theorem validates_named_server : ∃ es text,
    Runs (run ⟨"shardsync.toml", false, .init "n.toml" "PRMR \"1\"\n\\"⟩) es .done ∧
      ⟨.writeFile "n.toml" text, .ok ()⟩ ∈ es ∧
      Config.load (.ok text.toUTF8.data.toList) = .ok (Config.forNode "PRMR \"1\"\n\\") ∧
      ∀ ending, (∃ later, Runs (run ⟨"n.toml", false, .validate⟩) later ending ∧
        Finds "n.toml" text later) ↔ ending = .done := by
  obtain ⟨text, written⟩ := Config.forNode_written "PRMR \"1\"\n\\"
  obtain ⟨es, wrote, -⟩ := init_writes _ _ (Config.render_forNode written)
  obtain ⟨found, text, same, loaded, ends⟩ := validates_what_init_wrote wrote
  refine ⟨es, text, wrote, ?_, loaded, ends false⟩
  rw [same]
  exact .tail _ (.tail _ (.head _))

def namelessText : String :=
  "[node]\nid = \"\"\nreboot_id = 0\n\n" ++
    "[sync]\nattempt_timeout_secs = 0\nreadiness_poll_ms = 200\nsoft_lock_max_rounds = 18\n" ++
    "soft_lock_timeout_secs = 300\nsoft_lock_duty_cycle = 0.6\nhard_lock_timeout_secs = 600\n" ++
    "cancel_lock_timeout_secs = 60\nadd_follower_timeout_secs = 60\n" ++
    "leader_count_timeout_secs = 60\nleader_recount_timeout_secs = 900\n" ++
    "requeue_doc_diff_threshold = 10000\nbackoff_failure_threshold = 4\n" ++
    "backoff_max_secs = 15.0\nbackoff_step_ms = 500\ncurrent_version_wait_secs = 600\n" ++
    "long_bulk_sync_secs = 5\n\n" ++
    "[rpc]\nconnect_timeout_ms = 5000\nrequest_timeout_secs = 60\n\n" ++
    "[logging]\nlevel = \"info\"\nformat = \"pretty\"\n"

theorem nameless_written_but_refused :
    parse ["init", "--node-id", "", "--output", "n.toml"] =
        .ok ⟨defaultPath, false, .init "n.toml" ""⟩ ∧
      (∃ es, Runs (run ⟨defaultPath, false, .init "n.toml" ""⟩) es .done ∧
        ⟨.writeFile "n.toml" namelessText, .ok ()⟩ ∈ es) ∧
      Config.load (.ok namelessText.toUTF8.data.toList) =
        .error (.config "node.id cannot be empty") := by
  have rendered : (Config.forNode "").render = .ok namelessText := by decide +kernel
  exact ⟨by decide +kernel, init_writes _ _ rendered, Config.load_forNode rendered⟩

end FollowerSync.Command
