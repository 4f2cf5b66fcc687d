import FcsServer.Logger
import FcsServer.Survival
import Mathlib.Data.List.TakeWhile

/-!
# `main`: from the command line to the listening socket

The arguments of the program, `std::stoi` on the first of them, and the server on the port that
comes out.  `std::stoi` reads a prefix of its argument; its result goes through `uint32_t` to the
sixteen bits of a port.

* `stoi` / `Numeral` — the function, and the texts that begin with a number; `stoi_eq_ok_iff`;
* `main` / `process` — the log level and the port number, or the usage; the whole program;
* `Arguments` — the command lines with a port number; `main_of_arguments`, `main_of_usage`;
* `process_cases`, `process_printed` — what the program does with a command line;
* `process_ends_iff` — how it ends when no signal handler ends it.
-/

namespace FcsServer

open Logger TcpServer MessageHandler Survival

/-! ### `std::stoi` -/

/-- The two exceptions of `std::stoi`. -/
inductive StoiError where
  | invalidArgument
  | outOfRange
  deriving DecidableEq, Repr

/-- `isspace` in the C locale. -/
def isSpace (c : Char) : Bool := c = ' ' ∨ 9 ≤ c.toNat ∧ c.toNat ≤ 13

/-- The sign, if there is one, and what follows it. -/
def readSign : List Char → ℤ × List Char
  | '-' :: rest => (-1, rest)
  | '+' :: rest => (1, rest)
  | rest => (1, rest)

def intMin : ℤ := -2 ^ 31
def intMax : ℤ := 2 ^ 31 - 1

/-- `std::stoi`, which is `strtol` in base 10 and a check of the range. -/
def stoi (str : List Char) : Except StoiError ℤ :=
  let (sign, rest) := readSign (str.dropWhile isSpace)
  let digits := rest.takeWhile Char.isDigit
  if digits = [] then .error .invalidArgument
  else
    let value := sign * (Nat.ofDigitChars 10 digits 0 : ℤ)
    if value < intMin ∨ intMax < value then .error .outOfRange
    else .ok value

/-- The signs and what they stand for. -/
inductive Sign : List Char → ℤ → Prop where
  | none : Sign [] 1
  | plus : Sign ['+'] 1
  | minus : Sign ['-'] (-1)

/-- The text begins with a number: spaces, a sign, digits up to the end or to something else. -/
inductive Numeral : List Char → ℤ → Prop where
  | mk {spaces sign digits rest : List Char} {unit : ℤ} (hspaces : ∀ c ∈ spaces, isSpace c)
      (hsign : Sign sign unit) (hne : digits ≠ []) (hdigits : ∀ c ∈ digits, c.isDigit)
      (hrest : ∀ c, rest.head? = some c → c.isDigit = false)
      (hmin : intMin ≤ unit * (Nat.ofDigitChars 10 digits 0 : ℤ))
      (hmax : unit * (Nat.ofDigitChars 10 digits 0 : ℤ) ≤ intMax) :
      Numeral (spaces ++ (sign ++ (digits ++ rest)))
        (unit * (Nat.ofDigitChars 10 digits 0 : ℤ))

section Stoi

/-- A stretch of characters of a kind, up to one that is not. -/
theorem takeWhile_stretch {p : Char → Bool} {l rest : List Char} (hl : ∀ c ∈ l, p c)
    (hrest : ∀ c, rest.head? = some c → p c = false) : (l ++ rest).takeWhile p = l := by
  rw [List.takeWhile_append_of_pos hl]
  cases rest with
  | nil => exact List.append_nil l
  | cons c rest =>
    rw [List.takeWhile_cons_of_neg (by rw [hrest c rfl]; decide), List.append_nil]

theorem dropWhile_stretch {p : Char → Bool} {l rest : List Char} (hl : ∀ c ∈ l, p c)
    (hrest : ∀ c, rest.head? = some c → p c = false) : (l ++ rest).dropWhile p = rest := by
  rw [List.dropWhile_append_of_pos hl]
  cases rest with
  | nil => rfl
  | cons c rest => exact List.dropWhile_cons_of_neg (by rw [hrest c rfl]; decide)

theorem head_dropWhile {p : Char → Bool} {l : List Char} {c : Char}
    (h : (l.dropWhile p).head? = some c) : p c = false := by
  have hhead := List.head?_dropWhile_not p l
  rw [h] at hhead
  exact hhead

/-- A digit is neither a space nor a sign. -/
theorem digit_spec {c : Char} (h : c.isDigit) : isSpace c = false ∧ c ≠ '-' ∧ c ≠ '+' := by
  have hrange : 48 ≤ c.toNat := by
    rw [Char.isDigit, Bool.and_eq_true] at h
    exact of_decide_eq_true h.1
  refine ⟨?_, ?_, ?_⟩
  · rw [isSpace, decide_eq_false_iff_not]
    intro hspace
    cases hspace with
    | inl hblank =>
      cases hblank
      exact absurd hrange (by decide)
    | inr hcontrol => omega
  · intro hminus
    cases hminus
    exact absurd hrange (by decide)
  · intro hplus
    cases hplus
    exact absurd hrange (by decide)

theorem readSign_of_sign {sign rest : List Char} {unit : ℤ} (hsign : Sign sign unit)
    (hne : rest ≠ []) (hhead : ∀ c, rest.head? = some c → c.isDigit) :
    readSign (sign ++ rest) = (unit, rest) ∧
      ∀ c, (sign ++ rest).head? = some c → isSpace c = false := by
  cases hsign with
  | none =>
    cases rest with
    | nil => exact absurd rfl hne
    | cons c rest =>
      obtain ⟨hspace, hminus, hplus⟩ := digit_spec (hhead c rfl)
      refine ⟨?_, ?_⟩
      · rw [List.nil_append, readSign]
        · exact fun l heq => hminus (List.cons.inj heq).1
        · exact fun l heq => hplus (List.cons.inj heq).1
      · intro d hd
        cases hd
        exact hspace
  | plus => exact ⟨rfl, fun c hc => by cases hc; decide⟩
  | minus => exact ⟨rfl, fun c hc => by cases hc; decide⟩

/-- `readSign` takes a sign off, and nothing else. -/
theorem readSign_spec (str : List Char) :
    ∃ sign, str = sign ++ (readSign str).2 ∧ Sign sign (readSign str).1 := by
  rw [readSign.eq_def]
  split
  · exact ⟨['-'], rfl, .minus⟩
  · exact ⟨['+'], rfl, .plus⟩
  · exact ⟨[], rfl, .none⟩

theorem stoi_of_numeral {str : List Char} {n : ℤ} (h : Numeral str n) : stoi str = .ok n := by
  cases h with
  | @mk spaces sign digits rest unit hspaces hsign hne hdigits hrest hmin hmax =>
    have hhead : ∀ c, (digits ++ rest).head? = some c → c.isDigit := by
      intro c hc
      rw [List.head?_append_of_ne_nil _ hne] at hc
      exact hdigits c (List.mem_of_mem_head? hc)
    obtain ⟨hsigned, hspace⟩ :=
      readSign_of_sign hsign (List.append_ne_nil_of_left_ne_nil hne rest) hhead
    rw [stoi, dropWhile_stretch hspaces hspace, hsigned]
    dsimp only
    rw [takeWhile_stretch hdigits hrest, if_neg hne, if_neg (by omega)]

theorem numeral_of_stoi {str : List Char} {n : ℤ} (h : stoi str = .ok n) : Numeral str n := by
  obtain ⟨sign, hsplit, hsign⟩ := readSign_spec (str.dropWhile isSpace)
  rw [stoi] at h
  dsimp only at h
  split at h
  · cases h
  · rename_i hne
    split at h
    · cases h
    · rename_i hrange
      cases h
      generalize (readSign (str.dropWhile isSpace)).1 = unit at *
      generalize (readSign (str.dropWhile isSpace)).2 = body at *
      have hstr : str = str.takeWhile isSpace ++ (sign ++ (body.takeWhile Char.isDigit
          ++ body.dropWhile Char.isDigit)) := by
        rw [List.takeWhile_append_dropWhile, ← hsplit, List.takeWhile_append_dropWhile]
      rw [hstr]
      refine .mk (fun c hc => ?_) hsign hne (fun c hc => ?_) (fun c hc => ?_) (by omega) (by omega)
      · exact List.mem_takeWhile_imp hc
      · exact List.mem_takeWhile_imp hc
      · exact head_dropWhile hc

/-- **`std::stoi` returns a number exactly for the texts that begin with one.** -/
theorem stoi_eq_ok_iff {str : List Char} {n : ℤ} : stoi str = .ok n ↔ Numeral str n :=
  ⟨numeral_of_stoi, stoi_of_numeral⟩

/-- A printed number is read back, whatever follows it. -/
theorem numeral_printed (n : ℕ) (rest : List Char) (hn : (n : ℤ) ≤ intMax)
    (hrest : ∀ c, rest.head? = some c → c.isDigit = false) :
    Numeral ((toString n).toList ++ rest) n := by
  have hvalue : (n : ℤ) = 1 * (Nat.ofDigitChars 10 (Nat.toDigits 10 n) 0 : ℤ) := by
    rw [Nat.ofDigitChars_ten_toDigits, one_mul]
  have hlist : (toString n).toList = Nat.toDigits 10 n := Nat.toList_repr
  have hmin : intMin ≤ (n : ℤ) := by
    have hneg : intMin ≤ 0 := by decide
    omega
  have hdigit : ∀ c ∈ Nat.toDigits 10 n, c.isDigit := by
    intro c hc
    exact Nat.isDigit_of_mem_toDigits (by decide) (by decide) hc
  have hnil : ∀ c ∈ ([] : List Char), isSpace c := by
    intro c hc
    cases hc
  rw [hvalue] at hmin hn ⊢
  rw [hlist]
  exact Numeral.mk hnil .none Nat.toDigits_ne_nil hdigit hrest hmin hn

end Stoi

/-! ### The program -/

def usage : String :=
  "Usage: <executable name> <port number> optional:<log level> e.g ./fcsServer 50001 Debug"

def logLevels : String := "Possible log levels: Debug, Info (default), Warning, Error, Fatal"

def printUsageAndExit {α : Type} (currentLogLevel : LogLevel) : Console α := do
  log currentLogLevel usage .fatal
  log currentLogLevel logLevels .fatal
  Traced.stop 1

/-- The log level and the port number that the server is run with.  `built` is the date and time
of the build. -/
def main (built : String) (argv : List String) : Console (LogLevel × ℤ) := do
  let argc := argv.length
  let currentLogLevel ←
    if argc = 3 then
      match setCurrentLogLevel (argv.getD 2 "") with
      | none => printUsageAndExit .info
      | some level => pure level
    else pure LogLevel.info
  if argc < 2 ∨ argc > 3 then printUsageAndExit currentLogLevel
  else
    match stoi (argv.getD 1 "").toList with
    | .error _ => printUsageAndExit currentLogLevel
    | .ok portNumber => do
      log currentLogLevel ("FCS Server build on: " ++ built) .debug
      return (currentLogLevel, portNumber)

/-- `htons` keeps sixteen bits of the `uint32_t`. -/
def portOf (portNumber : ℤ) : UInt16 := (UInt32.ofInt portNumber).toUInt16

/-- The whole program: the answers to the first calls depend on the port that is asked for. -/
def process (built : String) (argv : List String) (world : UInt16 → SetupEnv)
    (envs : List LoopEnv) : Proc TcpServer :=
  match (main built argv).result with
  | .error code => Traced.stop (.exit code)
  | .ok (_, portNumber) =>
    -- nothing is thrown here for the `catch` of the source (`process_ends_iff`)
    run handleIncomingMessage (world (portOf portNumber)) envs

/-- What is printed for a command line that is not understood. -/
def usageLines : List String :=
  [getLogLevelString .fatal ++ usage, getLogLevelString .fatal ++ logLevels]

/-- A command line with a port number, and a log level if there is a third argument. -/
inductive Arguments : List String → LogLevel → ℤ → Prop where
  | port {name port : String} {n : ℤ} (hport : Numeral port.toList n) :
    Arguments [name, port] .info n
  | level {name port word : String} {level : LogLevel} {n : ℤ} (hport : Numeral port.toList n)
      (hlevel : setCurrentLogLevel word = some level) : Arguments [name, port, word] level n

section Program

variable {built : String} {argv : List String} {level : LogLevel} {n : ℤ}

/-- The usage is printed at every log level. -/
theorem printUsageAndExit_eq {α : Type} (currentLogLevel : LogLevel) :
    (printUsageAndExit currentLogLevel : Console α) = ⟨usageLines, .error 1⟩ := by
  rw [printUsageAndExit, log_fatal, log_fatal, Traced.call_bind, Traced.call_bind]
  rfl

theorem main_two (name port : String) : main built [name, port]
    = match stoi port.toList with
      | .error _ => printUsageAndExit .info
      | .ok portNumber => do
        log .info ("FCS Server build on: " ++ built) .debug
        return (.info, portNumber) := by
  rw [main]
  rfl

theorem main_three (name port word : String) : main built [name, port, word]
    = match setCurrentLogLevel word with
      | none => printUsageAndExit .info
      | some level =>
        match stoi port.toList with
        | .error _ => printUsageAndExit level
        | .ok portNumber => do
          log level ("FCS Server build on: " ++ built) .debug
          return (level, portNumber) := by
  have hword : [name, port, word].getD 2 "" = word := rfl
  have hargc : [name, port, word].length = 3 := rfl
  rw [main, hword]
  dsimp only
  rw [if_pos hargc]
  cases setCurrentLogLevel word with
  | none =>
    dsimp only
    rw [printUsageAndExit_eq, Traced.mk_error_bind, printUsageAndExit_eq]
  | some level =>
    dsimp only
    rw [Traced.pure_bind']
    rfl

/-- Any other number of arguments. -/
theorem main_of_length (htwo : argv.length ≠ 2) (hthree : argv.length ≠ 3) :
    main built argv = ⟨usageLines, .error 1⟩ := by
  rw [main]
  dsimp only
  rw [if_neg hthree, Traced.pure_bind', if_pos (by omega), printUsageAndExit_eq]

/-- A build line is printed at most; the level and the number come back. -/
theorem build_result (level : LogLevel) (n : ℤ) :
    (do log level ("FCS Server build on: " ++ built) .debug
        return (level, n) : Console (LogLevel × ℤ)).result = .ok (level, n) := by
  rw [Traced.bind_of_ok _ (log_result level _ .debug)]
  rfl

/-- The lengths that `main` tells apart. -/
theorem argv_cases (argv : List String) : (∃ name port, argv = [name, port]) ∨
    (∃ name port word, argv = [name, port, word]) ∨ argv.length ≠ 2 ∧ argv.length ≠ 3 := by
  by_cases htwo : argv.length = 2
  · exact Or.inl (List.length_eq_two.mp htwo)
  · by_cases hthree : argv.length = 3
    · exact Or.inr (Or.inl (List.length_eq_three.mp hthree))
    · exact Or.inr (Or.inr ⟨htwo, hthree⟩)

theorem main_of_arguments (h : Arguments argv level n) :
    (main built argv).result = .ok (level, n) := by
  cases h with
  | port hport =>
    rw [main_two, stoi_eq_ok_iff.mpr hport]
    exact build_result .info n
  | level hport hlevel =>
    rw [main_three, hlevel]
    dsimp only
    rw [stoi_eq_ok_iff.mpr hport]
    exact build_result level n

/-- Every other command line gets the usage. -/
theorem main_of_usage (h : ∀ level n, ¬ Arguments argv level n) :
    main built argv = ⟨usageLines, .error 1⟩ := by
  obtain ⟨name, port, rfl⟩ | ⟨name, port, word, rfl⟩ | ⟨htwo, hthree⟩ := argv_cases argv
  · rw [main_two]
    cases hport : stoi port.toList with
    | error e => exact printUsageAndExit_eq .info
    | ok n => exact absurd (.port (stoi_eq_ok_iff.mp hport)) (h .info n)
  · rw [main_three]
    cases hlevel : setCurrentLogLevel word with
    | none => exact printUsageAndExit_eq .info
    | some level =>
      dsimp only
      cases hport : stoi port.toList with
      | error e => exact printUsageAndExit_eq level
      | ok n => exact absurd (.level (stoi_eq_ok_iff.mp hport) hlevel) (h level n)
  · exact main_of_length htwo hthree

/-- The sixteen low bits of the number. -/
theorem toNat_portOf (n : ℤ) : (portOf n).toNat = (n % 2 ^ 16).toNat := by
  rw [portOf, UInt32.ofInt, UInt32.toNat_toUInt16, UInt32.toNat_ofNat']
  omega

variable {world : UInt16 → SetupEnv} {envs : List LoopEnv}

theorem process_of_arguments (h : Arguments argv level n) :
    process built argv world envs = run handleIncomingMessage (world (portOf n)) envs := by
  rw [process, main_of_arguments h]

theorem process_of_usage (h : ∀ level n, ¬ Arguments argv level n) :
    process built argv world envs = Traced.stop (.exit 1) := by
  rw [process, main_of_usage h]

/-- **What the program does with a command line.**  With a port number first, and the name of a log
level second if there is a second, it is the server on the number modulo 2^16, whatever follows
the digits; otherwise it makes no call, prints the usage and ends with exit code 1. -/
theorem process_cases (built : String) (argv : List String) (world : UInt16 → SetupEnv)
    (envs : List LoopEnv) :
    (∃ level n, Arguments argv level n ∧ (main built argv).result = .ok (level, n) ∧
      ∃ port : UInt16, port.toNat = (n % 2 ^ 16).toNat ∧
        process built argv world envs = run handleIncomingMessage (world port) envs) ∨
    (∀ level n, ¬ Arguments argv level n) ∧ main built argv = ⟨usageLines, .error 1⟩ ∧
      process built argv world envs = Traced.stop (.exit 1) := by
  by_cases h : ∃ level n, Arguments argv level n
  · obtain ⟨level, n, harguments⟩ := h
    exact Or.inl ⟨level, n, harguments, main_of_arguments harguments, portOf n, toNat_portOf n,
      process_of_arguments harguments⟩
  · push Not at h
    exact Or.inr ⟨h, main_of_usage h, process_of_usage h⟩

/-- A printed number is the port, modulo 2^16, with anything but a digit after it. -/
theorem process_printed (built name : String) (n : ℕ) (rest : List Char) (hn : (n : ℤ) ≤ intMax)
    (hrest : ∀ c, rest.head? = some c → c.isDigit = false) (world : UInt16 → SetupEnv)
    (envs : List LoopEnv) :
    process built [name, String.ofList ((toString n).toList ++ rest)] world envs
      = run handleIncomingMessage (world (UInt16.ofNat n)) envs := by
  have hport : portOf n = UInt16.ofNat n := by
    rw [← UInt16.toNat_inj, toNat_portOf, UInt16.toNat_ofNat']
    omega
  have hnumeral : Numeral (String.ofList ((toString n).toList ++ rest)).toList n := by
    rw [String.toList_ofList]
    exact numeral_printed n rest hn hrest
  rw [process_of_arguments (.port hnumeral), hport]

theorem process_printed_50001 : (50001 : ℤ) ≤ intMax ∧
    process "" ["fcsServer", "50001 "] (fun _ => ⟨3, 0, 0⟩) []
      = run handleIncomingMessage ⟨3, 0, 0⟩ [] := by
  have hport := process_printed "" "fcsServer" 50001 [' '] (by decide)
    (by intro c hc; cases hc; decide) (fun _ => ⟨3, 0, 0⟩) []
  have htext : String.ofList ((toString 50001).toList ++ [' ']) = "50001 " := by decide
  rw [htext] at hport
  exact ⟨by decide, hport⟩

/-! ### How it ends -/

/-- The socket is not created, or not bound, or not listened on. -/
def SetupEnv.Refused (env : SetupEnv) : Prop :=
  env.socket = -1 ∨ env.bind < 0 ∨ env.listen = -1

/-- The run comes to an iteration where `P` holds of the server and of the answers. -/
def Comes (env : SetupEnv) (envs : List LoopEnv) (P : TcpServer → LoopEnv → Prop) : Prop :=
  ∃ pre now post server, envs = pre ++ now :: post ∧
    (run handleIncomingMessage env pre).result = .ok server ∧ P server now

def PollFails (_ : TcpServer) (env : LoopEnv) : Prop := env.numberOfEvents < 0

def PipeBreaks (server : TcpServer) (env : LoopEnv) : Prop :=
  0 < env.numberOfEvents ∧ ∃ i, BreaksPipe (server.polled env.revents) env.slot i

theorem setup_stops_iff {env : SetupEnv} {stop : Stop} :
    (setup env {}).result = .error stop ↔ stop = .exit 1 ∧ env.Refused := by
  rw [setup_eq, SetupEnv.Refused]
  by_cases hsocket : env.socket = -1
  · simp [hsocket, eq_comm]
  · by_cases hbind : env.bind < 0
    · simp [hsocket, hbind, eq_comm]
    · by_cases hlisten : env.listen = -1
      · simp [hsocket, hbind, hlisten, eq_comm]
      · simp [hsocket, hbind, hlisten]

/-- The loop is entered when the socket is there. -/
theorem run_of_accepted {env : SetupEnv} (h : ¬ env.Refused) : ∃ calls server,
    ∀ envs, run handleIncomingMessage env envs
      = ⟨calls ++ (loop handleIncomingMessage envs server).calls,
        (loop handleIncomingMessage envs server).result⟩ := by
  cases hsetup : (setup env {}).result with
  | error stop => exact absurd (setup_stops_iff.mp hsetup).2 h
  | ok server => exact ⟨_, server, fun envs => Traced.bind_of_ok _ hsetup⟩

theorem run_of_refused {env : SetupEnv} (h : env.Refused) (envs : List LoopEnv) :
    (run handleIncomingMessage env envs).result = .error (.exit 1) := by
  rw [run, Traced.bind_of_error _ (setup_stops_iff.mpr ⟨rfl, h⟩)]

theorem run_stops_iff {env : SetupEnv} {stop : Stop} :
    (run handleIncomingMessage env envs).result = .error stop ↔
      stop = .exit 1 ∧ (env.Refused ∨ Comes env envs PollFails) ∨
        stop = .sigpipe ∧ Comes env envs PipeBreaks := by
  by_cases hrefused : env.Refused
  · have hnever : ∀ {P}, ¬ Comes env envs P := by
      intro P hcomes
      obtain ⟨pre, now, post, server, -, hpre, -⟩ := hcomes
      rw [run_of_refused hrefused] at hpre
      cases hpre
    rw [run_of_refused hrefused]
    simp [hrefused, hnever, eq_comm]
  · obtain ⟨calls, first, hrun⟩ := run_of_accepted hrefused
    simp only [Comes, hrun, hrefused, false_or]
    constructor
    · intro hstop
      obtain ⟨pre, now, post, server, hsplit, hpre, hnow⟩ := Traced.foldlM_eq_error.mp hstop
      obtain ⟨hneg, hexit⟩ | ⟨hpos, hpipe, hbreaks⟩ := iteration_stops_iff.mp hnow
      · exact Or.inl ⟨hexit, pre, now, post, server, hsplit, hpre, hneg⟩
      · exact Or.inr ⟨hpipe, pre, now, post, server, hsplit, hpre, hpos, hbreaks⟩
    · intro hends
      obtain ⟨hexit, hcomes⟩ | ⟨hpipe, hcomes⟩ := hends
      · obtain ⟨pre, now, post, server, hsplit, hpre, hneg⟩ := hcomes
        exact Traced.foldlM_eq_error.mpr ⟨pre, now, post, server, hsplit, hpre,
          iteration_stops_iff.mpr (Or.inl ⟨hneg, hexit⟩)⟩
      · obtain ⟨pre, now, post, server, hsplit, hpre, hpos, hbreaks⟩ := hcomes
        exact Traced.foldlM_eq_error.mpr ⟨pre, now, post, server, hsplit, hpre,
          iteration_stops_iff.mpr (Or.inr ⟨hpos, hpipe, hbreaks⟩)⟩

/-- **How the program ends when it is not told to.**  With exit code 1: the usage, no listening
socket, a failed `poll`.  With `SIGPIPE`: an answered client is gone.  No other way as long as
writing a line to the console succeeds, so the `catch` around the server has nothing to catch, and
nothing but a signal handler ends it with code 0. -/
theorem process_ends_iff (built : String) (argv : List String) (world : UInt16 → SetupEnv)
    (envs : List LoopEnv) (stop : Stop) :
    (process built argv world envs).result = .error stop ↔
      stop = .exit 1 ∧ (∀ level n, ¬ Arguments argv level n) ∨
        ∃ level n, Arguments argv level n ∧
          (stop = .exit 1 ∧ ((world (portOf n)).Refused ∨
              Comes (world (portOf n)) envs PollFails) ∨
            stop = .sigpipe ∧ Comes (world (portOf n)) envs PipeBreaks) := by
  by_cases h : ∃ level n, Arguments argv level n
  · obtain ⟨level, n, harguments⟩ := h
    rw [process_of_arguments harguments, run_stops_iff]
    constructor
    · intro hends
      exact Or.inr ⟨level, n, harguments, hends⟩
    · intro hends
      obtain ⟨-, hnone⟩ | ⟨level', n', harguments', hends⟩ := hends
      · exact absurd harguments (hnone level n)
      · have hsame := @main_of_arguments built _ _ _ harguments'
        rw [main_of_arguments harguments] at hsame
        cases hsame
        exact hends
  · push Not at h
    rw [process_of_usage h]
    constructor
    · intro hends
      cases hends
      exact Or.inl ⟨rfl, h⟩
    · intro hends
      obtain ⟨rfl, -⟩ | ⟨level, n, harguments, -⟩ := hends
      · rfl
      · exact absurd harguments (h level n)

end Program

end FcsServer
