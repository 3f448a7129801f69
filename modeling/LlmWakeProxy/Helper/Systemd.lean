import LlmWakeProxy.Library.KeyValue
import LlmWakeProxy.Helper.Command
import LlmWakeProxy.Helper.Lease

/-!
`RealSystemd` and `CurlHttp`: the services of the helper over the programs that it
runs. A program that cannot be run or does not succeed is an error with what it wrote
to stderr; only `is_active` takes the exit code for the answer. What `systemctl show`
prints is read line by line.

Running a program is a parameter, and the description of invalid UTF-8 is the standard
library's.
-/

namespace LlmWakeProxy.Helper
open LlmWakeProxy.Library
open PanicM (bind_eq_some bind_run pure_eq_some)
open LlmWakeProxy.Forward (Text Value)
open LlmWakeProxy.Lifecycle (Instant Duration)

universe u
variable {ν : Type u} {σ : Type}

/-- The machine the helper runs on: its programs and its clock, which neither a program
nor a sleep turns back. -/
structure Machine (ν : Type u) (σ : Type) where
  output : Text → List Text → σ → Except String Output × σ
  utf8Error : List UInt8 → String
  fromStr : Text → Except String (Value ν)
  now : σ → Instant
  sleep : Duration → σ → σ
  now_output : ∀ program args host, now host ≤ now (output program args host).2
  now_sleep : ∀ span host, now host + span ≤ now (sleep span host)

/-- The entry of a line is put into the map. -/
def insertEntry (map : Text → Option Text) (entry : Text × Text) : Text → Option Text :=
  Function.update map entry.1 (some entry.2)

/-- `parse_systemctl_output`. -/
def parseSystemctlOutput (utf8Error : List UInt8 → String) (bytes : List UInt8) :
    Except String UnitProperties :=
  match Utf8.decode bytes with
  | none => .error ("invalid UTF-8 in systemctl output: " ++ utf8Error bytes)
  | some text =>
      let map := (KeyValue.pairsOf '\n' '\r' '=' text).foldl insertEntry fun _ => none
      .ok fun name => (map name.toList).map String.ofList

namespace Machine
variable (m : Machine ν σ)

/-- What is made of an output, when the program could be run. -/
def run {ρ : Type} (program : Text) (args : List Text) (read : Output → Except String ρ)
    (host : σ) : Except String ρ × σ :=
  match m.output program args host with
  | (.error e, host) => (.error ("failed to run " ++ String.ofList program ++ ": " ++ e), host)
  | (.ok output, host) => (read output, host)

/-- An output that counts when the program succeeded. -/
def checked {ρ : Type} (what : String) (read : List UInt8 → Except String ρ) (output : Output) :
    Except String ρ :=
  if output.success then read output.stdout
  else .error (what ++ " failed: " ++ String.ofList (Utf8.decodeLossy output.stderr))

def systemctl : Text := "systemctl".toList
def systemdRun : Text := "systemd-run".toList
def curl : Text := "curl".toList

def showArgs (unit : String) : List Text :=
  ["--user".toList, "show".toList, unit.toList, "--property=ActiveState".toList,
   "--property=SubState".toList, "--property=Description".toList]

def showUnit (unit : String) : σ → Except String UnitProperties × σ :=
  m.run systemctl (showArgs unit)
    (checked "systemctl show" (parseSystemctlOutput m.utf8Error))

def isActiveArgs (unit : String) : List Text :=
  ["--user".toList, "is-active".toList, unit.toList]

def isActive (unit : String) : σ → Except String Bool × σ :=
  m.run systemctl (isActiveArgs unit) fun output => .ok output.success

def startUnit (unit : String) : σ → Except String Unit × σ :=
  m.run systemctl ["--user".toList, "start".toList, unit.toList]
    (checked "systemctl start" fun _ => .ok ())

def stopUnit (unit : String) : σ → Except String Unit × σ :=
  m.run systemctl ["--user".toList, "stop".toList, unit.toList]
    (checked "systemctl stop" fun _ => .ok ())

def replaceArgs (unit description : String) (args : List String) : List Text :=
  ["--user".toList, "--unit".toList, unit.toList, "--replace".toList, "--description".toList,
   description.toList, "--collect".toList] ++ args.map String.toList

def replaceTransientUnit (unit description : String) (args : List String) :
    σ → Except String Unit × σ :=
  m.run systemdRun (replaceArgs unit description args) (checked "systemd-run" fun _ => .ok ())

/-- `CurlHttp::get_text`. -/
def getText (url : String) : σ → Except String Text × σ :=
  m.run curl ["-sf".toList, url.toList] (checked "curl" fun stdout =>
    match Utf8.decode stdout with
    | some text => .ok text
    | none => .error ("invalid UTF-8: " ++ m.utf8Error stdout))

theorem now_run {ρ : Type} (program : Text) (args : List Text) (read : Output → Except String ρ)
    (host : σ) : m.now host ≤ m.now (m.run program args read host).2 := by
  have later := m.now_output program args host
  unfold run
  split <;> simp_all

/-- The services of the helper on the machine. -/
def services : CommandServices ν σ where
  isActive := m.isActive
  startUnit := m.startUnit
  showUnit := m.showUnit
  getText := m.getText
  fromStr := m.fromStr
  now := m.now
  sleep := m.sleep
  now_getText _ _ := m.now_run _ _ _ _
  now_sleep := m.now_sleep
  stopUnit := m.stopUnit
  replaceTransientUnit := m.replaceTransientUnit

end Machine

/-! ### What is printed is read -/

/-- The properties of a unit, of which the last for a name counts. -/
def propertiesOf (printed : List (Text × Text)) : UnitProperties := fun name =>
  (KeyValue.lastOf printed name.toList).map String.ofList

theorem propertiesOf_eq_some {printed : List (Text × Text)} {name value : String} :
    propertiesOf printed name = some value ↔
      KeyValue.lastOf printed name.toList = some value.toList := by
  rw [propertiesOf, Option.map_eq_some_iff]
  constructor
  · rintro ⟨text, found, rfl⟩
    rw [found, String.toList_ofList]
  · exact fun found => ⟨value.toList, found, String.ofList_toList⟩

theorem parseSystemctlOutput_eq (utf8Error : List UInt8 → String) {bytes : List UInt8}
    {text : Text} (h : Utf8.decode bytes = some text) :
    parseSystemctlOutput utf8Error bytes =
      .ok (propertiesOf (KeyValue.pairsOf '\n' '\r' '=' text)) := by
  have inserted := KeyValue.foldl_update (KeyValue.pairsOf '\n' '\r' '=' text) fun _ => none
  simp only [parseSystemctlOutput, h]
  refine congrArg Except.ok (funext fun name => congrArg (Option.map String.ofList) ?_)
  exact (inserted name.toList).trans Option.or_none

namespace Machine
variable {m : Machine ν σ} {host host' : σ} {unit : String}

@[simp] theorem run_snd {ρ : Type} (program : Text) (args : List Text)
    (read : Output → Except String ρ) (host : σ) :
    (m.run program args read host).2 = (m.output program args host).2 := by
  unfold run
  split <;> simp_all

theorem run_eq_ok {ρ : Type} {program : Text} {args : List Text} {read : Output → Except String ρ}
    {value : ρ} : (m.run program args read host).1 = .ok value ↔
      ∃ output, (m.output program args host).1 = .ok output ∧ read output = .ok value := by
  unfold run
  split <;> simp_all

theorem checked_eq_ok {ρ : Type} {what : String} {read : List UInt8 → Except String ρ}
    {output : Output} {value : ρ} :
    checked what read output = .ok value ↔ output.success = true ∧ read output.stdout = .ok value := by
  unfold checked
  split <;> simp_all

/-- The properties that `systemctl show` prints are those of the unit, the last for a
name, and nothing else is. -/
theorem systemctl_output_read_back (m : Machine ν σ) (unit : String) (host host' : σ)
    (printed : List (Text × Text)) (stderr : List UInt8)
    (printable : ∀ entry ∈ printed, KeyValue.Printable '\n' '\r' '=' entry)
    (ran : m.output systemctl (showArgs unit) host =
      (.ok ⟨true, Utf8.encode (KeyValue.print '\n' '=' printed), stderr⟩, host')) :
    m.showUnit unit host = (.ok (propertiesOf printed), host') := by
  have read := parseSystemctlOutput_eq m.utf8Error
    (Utf8.decode_encode (KeyValue.print '\n' '=' printed))
  rw [KeyValue.pairsOf_print printable] at read
  simp only [showUnit, run, ran, checked, if_true, read]

/-- A machine, no more than its clock, on which every program prints the same. -/
def printing (stdout : Text) : Machine Unit Instant where
  output _ _ host := (.ok ⟨true, Utf8.encode stdout, []⟩, host)
  utf8Error _ := ""
  fromStr _ := .error ""
  now host := host
  sleep span host := host + span
  now_output _ _ host := le_refl host
  now_sleep _ _ := le_refl _

def printedUnit : List (Text × Text) :=
  [("ActiveState".toList, "activating".toList), ("Description".toList, "a=b".toList),
   ("ActiveState".toList, "active".toList)]

theorem systemctl_output_read_back_twice :
    (printing (KeyValue.print '\n' '=' printedUnit)).showUnit "llama" 0 =
        (.ok (propertiesOf printedUnit), 0) ∧
      propertiesOf printedUnit "ActiveState" = some "active" ∧
      propertiesOf printedUnit "Description" = some "a=b" := by
  refine ⟨systemctl_output_read_back _ "llama" 0 0 printedUnit [] ?_ rfl, ?_, ?_⟩
  · intro entry hentry
    simp only [printedUnit, List.mem_cons, List.not_mem_nil, or_false] at hentry
    obtain rfl | rfl | rfl := hentry <;> exact ⟨by decide, by decide, by decide⟩
  · exact propertiesOf_eq_some.mpr (by decide)
  · exact propertiesOf_eq_some.mpr (by decide)

/-- The program could be run, and succeeded. -/
def Succeeded (outcome : Except String Output) : Prop :=
  ∃ output, outcome = .ok output ∧ output.success = true

/-- `systemctl show` succeeded, and the last line for the state says active. -/
def PrintsActive (outcome : Except String Output) : Prop :=
  ∃ output text, outcome = .ok output ∧ output.success = true ∧
    Utf8.decode output.stdout = some text ∧
    KeyValue.lastOf (KeyValue.pairsOf '\n' '\r' '=' text) "ActiveState".toList =
      some "active".toList

theorem showUnit_active : (∃ props, (m.showUnit unit host).1 = .ok props ∧
      props "ActiveState" = some "active") ↔
    PrintsActive (m.output systemctl (showArgs unit) host).1 := by
  constructor
  · rintro ⟨props, shown, active⟩
    obtain ⟨output, outcome, hchecked⟩ := run_eq_ok.mp shown
    obtain ⟨success, hparsed⟩ := checked_eq_ok.mp hchecked
    cases hdecoded : Utf8.decode output.stdout with
    | none =>
        rw [parseSystemctlOutput, hdecoded] at hparsed
        cases hparsed
    | some text =>
        rw [parseSystemctlOutput_eq m.utf8Error hdecoded] at hparsed
        cases hparsed
        exact ⟨output, text, outcome, success, hdecoded, propertiesOf_eq_some.mp active⟩
  · rintro ⟨output, text, outcome, success, hdecoded, active⟩
    exact ⟨_, run_eq_ok.mpr ⟨output, outcome, checked_eq_ok.mpr
      ⟨success, parseSystemctlOutput_eq m.utf8Error hdecoded⟩⟩, propertiesOf_eq_some.mpr active⟩

end Machine

/-! ### The lease on the machine -/

section Lease
variable (m : Machine ν σ) (unit : String) (ttlSecs : UInt64) (host : σ)

/-- The programs of an acquisition, one after the other: the query, -/
def queried : Except String Output × σ :=
  m.output Machine.systemctl (Machine.isActiveArgs unit) host

/-- the replacement, -/
def replaced : Except String Output × σ :=
  m.output Machine.systemdRun
    (Machine.replaceArgs unit inhibitDescription (inhibitArgs (clampTtl ttlSecs)))
    (queried m unit host).2

/-- and the look at what came of it. -/
def shown : Except String Output × σ :=
  m.output Machine.systemctl (Machine.showArgs unit) (replaced m unit ttlSecs host).2

/-- The response of an acquisition is what the programs came to. -/
structure ReportsLease (response : LeaseAcquireResponse) : Prop where
  ttl : response.ttlSecs = clampTtl ttlSecs
  ok : response.status = .ok ↔ Machine.Succeeded (replaced m unit ttlSecs host).1 ∧
    Machine.PrintsActive (shown m unit ttlSecs host).1
  renewed : response.renewed = true ↔
    response.status = .ok ∧ Machine.Succeeded (queried m unit host).1

end Lease

/-- What comes of an acquisition, by the answers of systemd. -/
theorem leaseAcquire_run (settings : HelperSettings) (services : CommandServices ν σ)
    (ttlSecs : UInt64) (session : CommandSession σ) {active : Except String Bool}
    {replaced : Except String Unit} {shown : Except String UnitProperties} {host₁ host₂ host₃ : σ}
    (hactive : services.isActive settings.inhibitHolderUnit session.host = (active, host₁))
    (hreplaced : services.replaceTransientUnit settings.inhibitHolderUnit inhibitDescription
      (inhibitArgs (clampTtl ttlSecs)) host₁ = (replaced, host₂))
    (hshown : services.showUnit settings.inhibitHolderUnit host₂ = (shown, host₃)) :
    ∃ response session', leaseAcquire settings services ttlSecs session = (some response, session') ∧
      response.ttlSecs = clampTtl ttlSecs ∧
      (response.status = .ok ↔ replaced = .ok () ∧
        ∃ props, shown = .ok props ∧ props "ActiveState" = some "active") ∧
      (response.renewed = true ↔ response.status = .ok ∧ active = .ok true) := by
  let asked : CommandSession σ :=
    { session with host := host₁
                   calls := .host (.isActive settings.inhibitHolderUnit active) :: session.calls }
  let renewed : CommandSession σ :=
    { asked with host := host₂
                 calls := .replaceTransientUnit settings.inhibitHolderUnit inhibitDescription
                   (inhibitArgs (clampTtl ttlSecs)) replaced :: asked.calls }
  let looked : CommandSession σ :=
    { renewed with host := host₃
                   calls := .host (.showUnit settings.inhibitHolderUnit shown) :: renewed.calls }
  have queries : lift (call (services.isActive settings.inhibitHolderUnit)
      (.isActive settings.inhibitHolderUnit)) session = (some active, asked) := by
    simp only [lift, call, hactive]
    rfl
  have replaces : command (services.replaceTransientUnit settings.inhibitHolderUnit
      inhibitDescription (inhibitArgs (clampTtl ttlSecs)))
      (.replaceTransientUnit settings.inhibitHolderUnit inhibitDescription
        (inhibitArgs (clampTtl ttlSecs))) asked = (some replaced, renewed) := by
    simp only [command, asked, hreplaced]
    rfl
  have run : leaseAcquire settings services ttlSecs session = _ :=
    (bind_run queries).trans (bind_run replaces)
  cases replaced with
  | error e => exact ⟨_, _, run, rfl, by simp, by simp⟩
  | ok _ =>
      have looks : lift (collectUnitInfo services.toServices settings.inhibitHolderUnit) renewed =
          (some (some (infoOf settings.inhibitHolderUnit shown)), looked) :=
        lift_run (collectUnitInfo_run hshown)
      have run := run.trans (bind_run looks)
      have held := infoOf_active settings.inhibitHolderUnit shown
      cases hstate : (infoOf settings.inhibitHolderUnit shown).activeState == "active" with
      | true =>
          simp only [Option.map_some, Option.getD_some, hstate, Bool.not_true, Bool.false_eq_true,
            if_false] at run
          have holds := held.mp (beq_iff_eq.mp hstate)
          refine ⟨_, _, run, rfl, ⟨fun _ => ⟨rfl, holds⟩, fun _ => rfl⟩, ?_⟩
          cases active <;> simp
      | false =>
          simp only [Option.map_some, Option.getD_some, hstate, Bool.not_false, if_true] at run
          have inactive := fun active => beq_eq_false_iff_ne.mp hstate (held.mpr active)
          refine ⟨_, _, run, rfl, ⟨fun held => ?_, fun held => absurd held.2 inactive⟩,
            ⟨fun renewed => ?_, fun held => ?_⟩⟩
          · cases held
          · cases renewed
          · cases held.1

namespace Machine
variable {m : Machine ν σ} {host : σ} {unit : String}

theorem isActive_true : (m.isActive unit host).1 = .ok true ↔
    Succeeded (m.output systemctl (isActiveArgs unit) host).1 := by
  rw [isActive, run_eq_ok]
  simp only [Succeeded, Except.ok.injEq]

theorem replaceTransientUnit_ok {description : String} {args : List String} :
    (m.replaceTransientUnit unit description args host).1 = .ok () ↔
      Succeeded (m.output systemdRun (replaceArgs unit description args) host).1 := by
  rw [replaceTransientUnit, run_eq_ok]
  simp only [checked_eq_ok, and_true, Succeeded]

end Machine

/-- To acquire the lease always gives a response, and it says that the lease is held when
the unit was replaced and is then printed as active, and that it was renewed when the
unit had been active before. -/
theorem lease_reported_as_held (m : Machine ν σ) (settings : HelperSettings) (ttlSecs : UInt64)
    (session : CommandSession σ) :
    ∃ response session',
      leaseAcquire settings m.services ttlSecs session = (some response, session') ∧
        ReportsLease m settings.inhibitHolderUnit ttlSecs session.host response := by
  let unit := settings.inhibitHolderUnit
  let asked := m.isActive unit session.host
  let given := m.replaceTransientUnit unit inhibitDescription (inhibitArgs (clampTtl ttlSecs)) asked.2
  have hasked : asked.2 = (queried m unit session.host).2 := Machine.run_snd ..
  have hgiven : given.2 = (replaced m unit ttlSecs session.host).2 :=
    (Machine.run_snd ..).trans
      (congrArg (fun host => (m.output Machine.systemdRun _ host).2) hasked)
  have acquires := leaseAcquire_run settings m.services ttlSecs session
    (show m.isActive unit session.host = (asked.1, asked.2) from rfl)
    (show m.replaceTransientUnit unit inhibitDescription (inhibitArgs (clampTtl ttlSecs)) asked.2 =
      (given.1, given.2) from rfl)
    (show m.showUnit unit given.2 = ((m.showUnit unit given.2).1, _) from rfl)
  obtain ⟨response, session', run, ttl, ok, renewed⟩ := acquires
  rw [Machine.replaceTransientUnit_ok, hasked, Machine.showUnit_active, hgiven] at ok
  exact ⟨response, session', run, ttl, ok, renewed.trans (and_congr_right' Machine.isActive_true)⟩

end LlmWakeProxy.Helper
