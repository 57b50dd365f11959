import AccelControl.Proofs.Scan.Presence
import Mathlib.Data.List.Induction

/-! Parameters that are set one after another.

What counts is the last value that each parameter was given. The order matters between two values of
one parameter and nowhere else: the deprecated flag gives way to the canonical one, whichever of the
two was set last.
-/

set_option autoImplicit false

namespace AccelControl.ScanParams

def Setting.name : Setting → String
  | .qpSize _ => "qp_size"
  | .cqSize _ => "cq_size"
  | .numRequests _ => "num_requests"
  | .cryptoSplitBlocks _ => "crypto_split_blocks"
  | .allowedDevs _ => "allowed_devs"
  | .merge _ => "merge"
  | .qpPerDomain _ => "qp_per_domain"
  | .enableDriver _ => "enable_driver"
  | .enableModule _ => "enable_module"
  | .disableSignature _ => "disable_signature"
  | .disableCrypto _ => "disable_crypto"

def settingsOf (name : String) (settings : List Setting) : List Setting :=
  settings.filter fun setting => setting.name == name

def last? (name : String) (settings : List Setting) : Option Setting :=
  (settingsOf name settings).getLast?

/-- The same settings in another order, but for each parameter its own in the same order. -/
def Rearranged (settings others : List Setting) : Prop :=
  ∀ name, settingsOf name settings = settingsOf name others

theorem setAll_concat (p : ScanParams) (settings : List Setting) (latest : Setting) :
    p.setAll (settings ++ [latest]) = (p.setAll settings).set latest := by
  rw [setAll, List.foldl_append]
  rfl

theorem last?_concat (name : String) (settings : List Setting) (latest : Setting) :
    last? name (settings ++ [latest])
      = if latest.name = name then some latest else last? name settings := by
  by_cases same : latest.name = name
  · simp [last?, settingsOf, same]
  · simp [last?, settingsOf, same]

theorem not_asks_empty (setting : Setting) : ¬empty.Asks setting := by
  cases setting <;> nofun

/-- Setting a parameter settles what is asked of it and leaves the others alone. -/
theorem asks_set (p : ScanParams) (latest setting : Setting) :
    (p.set latest).Asks setting
      ↔ if latest.name = setting.name then latest = setting else p.Asks setting := by
  cases latest <;> cases setting <;> simp [set, Asks, Setting.name]

theorem asks_setAll (settings : List Setting) (setting : Setting) :
    (empty.setAll settings).Asks setting ↔ last? setting.name settings = some setting := by
  induction settings using List.reverseRecOn with
  | nil => exact iff_of_false (not_asks_empty setting) nofun
  | append_singleton settings latest ih =>
    rw [setAll_concat, asks_set, last?_concat]
    split
    · rw [Option.some.injEq]
    · exact ih

variable {p q : ScanParams}

theorem eq_of_asks (same : ∀ setting, p.Asks setting ↔ q.Asks setting) : p = q := by
  cases p
  cases q
  rw [mk.injEq]
  exact ⟨Option.ext fun n => same (.qpSize n), Option.ext fun n => same (.cqSize n),
    Option.ext fun n => same (.numRequests n), Option.ext fun n => same (.cryptoSplitBlocks n),
    Option.ext fun names => same (.allowedDevs names), Option.ext fun b => same (.merge b),
    Option.ext fun b => same (.qpPerDomain b), Option.ext fun b => same (.enableDriver b),
    Option.ext fun b => same (.enableModule b), Option.ext fun b => same (.disableSignature b),
    Option.ext fun b => same (.disableCrypto b)⟩

theorem setAll_congr {settings others : List Setting}
    (same : ∀ name, last? name settings = last? name others) :
    empty.setAll settings = empty.setAll others :=
  eq_of_asks fun setting => by rw [asks_setAll, asks_setAll, same]

theorem Rearranged.last?_eq {settings others : List Setting} (again : Rearranged settings others)
    (name : String) : last? name settings = last? name others := by
  rw [last?, last?, again]

theorem last?_eq_none {name : String} {settings : List Setting}
    (never : ∀ setting ∈ settings, setting.name ≠ name) : last? name settings = none := by
  have none : settingsOf name settings = [] := by simpa [settingsOf] using never
  rw [last?, none, List.getLast?_nil]

/-- A parameter has the value that it was given last, and none if it was never set. So settings of
which the same come last, in particular those in another order, make the same parameters and the same
request with the same notices. And of the two flags for the driver the canonical one is sent,
whichever was set last. -/
theorem setAll_by_last (settings : List Setting) :
    (∀ setting, (empty.setAll settings).Asks setting
        ↔ last? setting.name settings = some setting) ∧
      (∀ setting : Setting, (∀ earlier ∈ settings, earlier.name ≠ setting.name) →
        ¬(empty.setAll settings).Asks setting) ∧
      (∀ others, (∀ name, last? name settings = last? name others) ∨ Rearranged settings others →
        empty.setAll settings = empty.setAll others
          ∧ (empty.setAll settings).build = (empty.setAll others).build) ∧
      ∀ b, last? "enable_driver" settings = some (.enableDriver b) →
        (empty.setAll settings).build.params.get? "enable_driver" = some (.bool b) := by
  refine ⟨asks_setAll settings, fun setting never => ?_, fun others again => ?_, fun b last => ?_⟩
  · rw [asks_setAll, last?_eq_none never]
    exact nofun
  · have same : empty.setAll settings = empty.setAll others :=
      setAll_congr (again.elim id Rearranged.last?_eq)
    exact ⟨same, congrArg build same⟩
  · have given : (empty.setAll settings).enableDriver = some b :=
      (asks_setAll settings (.enableDriver b)).2 last
    rw [get?_build_driver, driver, given, Option.some_or, Option.map_some]

-- The deprecated flag was set last, and is reported, but it is not sent.
example :
    let built := (empty.setAll [.merge true, .enableDriver true, .merge false]).build
    built.params.get? "enable_driver" = some (.bool true) ∧ built.notices = [⟨.merge, true⟩] :=
  ⟨rfl, rfl⟩

end AccelControl.ScanParams
