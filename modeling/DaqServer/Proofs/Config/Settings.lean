import DaqServer.Config.Settings
import DaqServer.Logging
import DaqServer.Proofs.Span

/-!
# What accepted settings are good for

Settings are accepted in one place and used in others, which have checks and limits of their own:
the listeners need a port above the control port, the log looks its level and format up by name, a
scan sums its time up. `Acceptable` lists what is asked of settings that are accepted. Main
statement: accepted settings never fail where they are used; the log takes the very names that are
accepted, and no time for a scan is cut or too long.
-/

namespace DaqServer

/-! ### Names of levels and formats -/

/-- The names that are accepted for a level are those that the log knows. -/
theorem LogLevel.contains_iff (name : String) :
    LogLevel.names.contains name.toLower = true ↔ ∃ level, LogLevel.ofName name = .ok level := by
  rw [LogLevel.ofName]
  split
  case h_7 =>
    refine iff_of_false (fun hnames => ?_) fun ⟨level, hlevel⟩ => absurd hlevel nofun
    simp only [names, List.contains_iff_mem, List.mem_cons, List.not_mem_nil, or_false] at hnames
    rcases hnames with hname | hname | hname | hname | hname | hname <;> contradiction
  all_goals
    rename_i hname
    exact iff_of_true (hname ▸ rfl) ⟨_, rfl⟩

/-- The names that are accepted for a format are those that the log knows. -/
theorem LogFormat.contains_iff (name : String) :
    LogFormat.names.contains name.toLower = true ↔
      ∃ format, LogFormat.ofName name = .ok format := by
  rw [LogFormat.ofName]
  split
  case h_4 =>
    refine iff_of_false (fun hnames => ?_) fun ⟨format, hformat⟩ => absurd hformat nofun
    simp only [names, List.contains_iff_mem, List.mem_cons, List.not_mem_nil, or_false] at hnames
    rcases hnames with hname | hname | hname <;> contradiction
  all_goals
    rename_i hname
    exact iff_of_true (hname ▸ rfl) ⟨_, rfl⟩

/-- There is an output where both names are known. -/
theorem LogOutput.ofNames_iff (level format : String) :
    (∃ output, LogOutput.ofNames level format = .ok output) ↔
      (∃ known, LogLevel.ofName level = .ok known) ∧
        ∃ known, LogFormat.ofName format = .ok known := by
  rw [ofNames]
  cases LogLevel.ofName level with
  | error fault => exact iff_of_false nofun nofun
  | ok known =>
      cases LogFormat.ofName format with
      | error fault => exact iff_of_false nofun nofun
      | ok format => exact iff_of_true ⟨_, rfl⟩ ⟨⟨_, rfl⟩, _, rfl⟩

namespace DaemonSettings

variable {s : DaemonSettings}

/-! ### What is accepted -/

/-- What is asked of settings. -/
structure Acceptable (s : DaemonSettings) : Prop where
  /-- There is a port above the control port. -/
  controlPort : s.server.controlPort ≠ 0 ∧ s.server.controlPort ≠ 65535
  maxMessageBytes : s.server.maxMessageBytes ≠ 0
  readTimeout : s.server.readTimeoutMillis ≠ 0
  mapLength : s.board.mapLength ≠ 0
  stream : s.streamSettings.validate = .ok ()
  level : LogLevel.names.contains s.logging.level.toLower = true
  format : LogFormat.names.contains s.logging.format.toLower = true

theorem require_iff {condition : Bool} {fault : ConfigFault} :
    require condition fault = .ok () ↔ condition = true := by
  cases condition with
  | false => exact iff_of_false nofun nofun
  | true => exact iff_of_true rfl rfl

theorem mapError_iff {ε ε' : Type} {f : ε → ε'} {check : Except ε Unit} :
    check.mapError f = .ok () ↔ check = .ok () := by
  cases check with
  | error fault => exact iff_of_false nofun nofun
  | ok => exact iff_of_true rfl rfl

/-- Nothing is refused where neither the first check nor those that follow refuse anything. -/
theorem bind_iff {ε : Type} {check : Except ε Unit} {next : Unit → Except ε Unit} :
    (check >>= next) = .ok () ↔ check = .ok () ∧ next () = .ok () := by
  cases check with
  | error fault => exact iff_of_false nofun nofun
  | ok => exact (and_iff_right rfl).symm

theorem validate_iff : s.validate = .ok () ↔ s.Acceptable := by
  simp only [validate, bind_iff, require_iff, mapError_iff, decide_eq_true_eq]
  exact ⟨fun ⟨hport, hmessage, htimeout, hlength, hstream, hlevel, hformat⟩ =>
      ⟨hport, hmessage, htimeout, hlength, hstream, hlevel, hformat⟩,
    fun h => ⟨h.controlPort, h.maxMessageBytes, h.readTimeout, h.mapLength, h.stream, h.level,
      h.format⟩⟩

theorem Acceptable.toNat_streamPort (h : s.Acceptable) :
    s.streamPort.toNat = s.server.controlPort.toNat + 1 := by
  have hlast : s.server.controlPort.toNat ≠ 65535 := fun hlast =>
    h.controlPort.2 (UInt16.toNat_inj.mp hlast)
  have hroom : s.server.controlPort.toNat + 1 < 2 ^ 16 := by
    have hlt := s.server.controlPort.toNat_lt
    omega
  rw [streamPort, if_neg h.controlPort.2, UInt16.toNat_add]
  exact Nat.mod_eq_of_lt hroom

/-! ### The time for a scan -/

/-- The longest scan with the longest times ends within a span. -/
theorem longest_timeout_le (s : DaemonSettings) :
    s.scanSettings.timeoutFloor.nanoseconds +
        s.scanSettings.timeoutPerSample.nanoseconds * (UInt8.size * UInt8.size) ≤
      Span.largest.nanoseconds := by
  have hfloor := s.scan.timeoutFloorMillis.toNat_lt
  have hperSample := s.scan.timeoutPerSampleMicros.toNat_lt
  change s.scan.timeoutFloorMillis.toNat * 1000000 +
    s.scan.timeoutPerSampleMicros.toNat * 1000 * (256 * 256) ≤
      0xFFFFFFFFFFFFFFFF * 1000000000 + 999999999
  omega

/-- Machine words compute the time that is allowed. -/
theorem span_timeoutWords (s : DaemonSettings) (expected : Nat) :
    (s.timeoutWords expected).map SpanWords.span = s.scanSettings.timeoutFor expected := by
  have hcount : (UInt32.ofNat (min expected 0xFFFFFFFF)).toNat = min expected 0xFFFFFFFF :=
    UInt32.toNat_ofNat_of_lt' (Nat.lt_of_le_of_lt (Nat.min_le_right _ _) (by decide))
  rw [timeoutWords, SpanWords.span_add?, SpanWords.span_times, hcount, SpanWords.span_ofMillis,
    SpanWords.span_ofMicros]
  rfl

/-! ### The main statement -/

/-- Settings that are accepted do not fail where they are used:

* the port for streaming is the one above the control port;
* the log finds its level and its format. Whatever the names, those that are accepted are those that
  it finds, each for itself and as part of otherwise acceptable settings;
* the time for a scan of any plan is the floor and the full allowance for each of its samples, and
  machine words hold it. -/
theorem accepted_never_fail (h : s.validate = .ok ()) :
    s.streamPort.toNat = s.server.controlPort.toNat + 1 ∧
    (∃ output, LogOutput.ofNames s.logging.level s.logging.format = .ok output) ∧
    (∀ name : String, LogLevel.names.contains name.toLower = true ↔
      ∃ level, LogLevel.ofName name = .ok level) ∧
    (∀ name : String, LogFormat.names.contains name.toLower = true ↔
      ∃ format, LogFormat.ofName name = .ok format) ∧
    (∀ names : LoggingSettings, { s with logging := names }.validate = .ok () ↔
      ∃ output, LogOutput.ofNames names.level names.format = .ok output) ∧
    ∀ plan : ScanPlan,
      let time : Span := ⟨s.scan.timeoutFloorMillis.toNat * 1000000 +
        plan.totalSamples * (s.scan.timeoutPerSampleMicros.toNat * 1000)⟩
      s.scanSettings.timeoutFor plan.totalSamples = some time ∧
        ∃ words, s.timeoutWords plan.totalSamples = some words ∧ words.span = time := by
  have haccepted := validate_iff.mp h
  have hnames (names : LoggingSettings) : { s with logging := names }.validate = .ok () ↔
      ∃ output, LogOutput.ofNames names.level names.format = .ok output := by
    rw [LogOutput.ofNames_iff, ← LogLevel.contains_iff, ← LogFormat.contains_iff, validate_iff]
    exact ⟨fun h => ⟨h.level, h.format⟩,
      fun ⟨hlevel, hformat⟩ => { haccepted with level := hlevel, format := hformat }⟩
  refine ⟨haccepted.toNat_streamPort, (hnames s.logging).mp h, LogLevel.contains_iff,
    LogFormat.contains_iff, hnames, fun plan => ?_⟩
  intro time
  have htime : s.scanSettings.timeoutFor plan.totalSamples = some time :=
    ScanSettings.timeoutFor_totalSamples s.longest_timeout_le plan
  exact ⟨htime, Option.map_eq_some_iff.mp ((s.span_timeoutWords _).trans htime)⟩

/-- The last port that leaves one, names in capitals, and the longest times for the longest scan. -/
theorem accepted_never_fail_at_limits :
    let s : DaemonSettings := {
      server := { controlPort := 65534 }
      scan := {
        timeoutFloorMillis := 0xFFFFFFFFFFFFFFFF
        timeoutPerSampleMicros := 0xFFFFFFFFFFFFFFFF }
      logging := { level := "Warning", format := "JSON" } }
    let plan : ScanPlan := ⟨0, 255, 255, by decide⟩
    s.validate = .ok () ∧ s.streamPort = 65535 ∧
      (∃ output, LogOutput.ofNames s.logging.level s.logging.format = .ok output) ∧
      s.scanSettings.timeoutFor plan.totalSamples =
        some ⟨0xFFFFFFFFFFFFFFFF * 1000000 + 65536 * (0xFFFFFFFFFFFFFFFF * 1000)⟩ := by
  intro s plan
  have hvalid : s.validate = .ok () :=
    validate_iff.mpr ⟨by decide, by decide, by decide, by decide, rfl, by decide +kernel,
      by decide +kernel⟩
  obtain ⟨hport, houtput, -, -, -, htime⟩ := accepted_never_fail hvalid
  have hsamples : plan.totalSamples = 65536 := by decide
  obtain ⟨htime, -⟩ := htime plan
  rw [hsamples] at htime ⊢
  exact ⟨hvalid, UInt16.toNat_inj.mp hport, houtput, htime⟩

end DaemonSettings

end DaqServer
