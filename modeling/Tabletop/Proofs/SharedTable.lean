import Tabletop.Proofs.Timing
import Tabletop.Session

/-!
# Tabletop.Proofs.SharedTable

A session serves its calls as if each stretch of commands between two
clearings had a table of its own.

On one side are the replies that the calls of a session get, stretch by
stretch (`Session.accounts`).  On the other side stand tables that nobody
shares: for each stretch one, set up in the surroundings that the commands
before its first call have brought about, and serving the calls of that
stretch alone (`apart`).  With the times overwritten the two are equal
(`Session.accounts_eq_apart`).  What changes the surroundings later in a stretch
therefore changes no answer in it.
-/

namespace Tabletop

open Text

/-! ## Calls at a table of their own -/

/-- What a call comes to: what it ends in, and what it adds to the log. -/
structure Account where
  ending : Except Fault Answer
  logged : List Entry

/-- An account of a call made at another time. -/
def Account.stamped (time : Timestamp) (a : Account) : Account where
  ending := Answer.stampEnding time a.ending
  logged := a.logged

/-- What calls made one after the other come to. -/
def Call.accounts {σ κ : Type} [DieSource σ] [Clock κ] (settings : Settings) :
    List Call → Supply σ κ → List Account
  | [], _ => []
  | c :: rest, s =>
    let (ending, after) := c.answer settings s
    ⟨ending, after.log.drop s.log.length⟩ :: accounts settings rest after

theorem Call.accounts_cons {σ κ : Type} [DieSource σ] [Clock κ] (settings : Settings) (c : Call)
    (rest : List Call) (s : Supply σ κ) :
    accounts settings (c :: rest) s =
      ⟨(c.answer settings s).1, (c.answer settings s).2.log.drop s.log.length⟩ ::
        accounts settings rest (c.answer settings s).2 := rfl

/-- What calls come to at a table that only they use. -/
def Table.serve {κ : Type} [Clock κ] (clock : κ) (table : Table) (cs : List Call) : List Account :=
  Call.accounts table.settings cs ⟨table.dice, clock, []⟩

/-! ## Commands and what they bring about -/

namespace Command

/-- The call that a command makes, if it makes one. -/
def call? : Command → Option Call
  | call c => some c
  | _ => none

/-- Whether a command clears the table. -/
def clears : Command → Bool
  | clear => true
  | _ => false

/-- Commands are a stretch that does not clear the table, or go on after such a
stretch has been ended by clearing it. -/
theorem stretch_induction {motive : List Command → Prop}
    (stretch : ∀ cs, (∀ c ∈ cs, c.clears = false) → motive cs)
    (clear : ∀ cs rest, (∀ c ∈ cs, c.clears = false) → motive rest → motive (cs ++ .clear :: rest))
    (cs : List Command) : motive cs := by
  have hgeneral : ∀ before, (∀ c ∈ before, c.clears = false) → motive (before ++ cs) := by
    induction cs with
    | nil =>
        intro before hbefore
        rw [List.append_nil]
        exact stretch before hbefore
    | cons c rest ih =>
        intro before hbefore
        cases hc : c.clears with
        | true =>
            cases c with
            | clear => exact clear before rest hbefore (ih [] (List.forall_mem_nil _))
            | _ => contradiction
        | false =>
            rw [← List.singleton_append, ← List.append_assoc]
            refine ih (before ++ [c]) fun d hd => ?_
            rw [List.mem_append, List.mem_singleton] at hd
            cases hd with
            | inl hd => exact hbefore d hd
            | inr hd => rw [hd, hc]
  exact hgeneral [] (List.forall_mem_nil _)

end Command

/-- What a table that is set up takes its settings from. -/
structure Surroundings where
  environment : Variables
  /-- The text of the file of variables. -/
  file : String
  settings : Settings

namespace Surroundings

/-- What a command makes of the surroundings.  Settings that are not valid
leave them as they are. -/
def after (around : Surroundings) : Command → Surroundings
  | .setVariables vs => { around with environment := around.environment.putAll vs }
  | .assign fs =>
    match Settings.resolve ⟨fs, around.environment, around.file⟩ with
    | .valid settings => { around with settings }
    | .invalid _ _ => around
  | .call _ | .clear => around

/-- The surroundings in which the first call of a stretch of commands is made. -/
def opening (around : Surroundings) (stretch : List Command) : Surroundings :=
  (stretch.takeWhile (·.call?.isNone)).foldl after around

end Surroundings

/-- What the calls of stretches of commands come to if each stretch has a table
of its own, with the settings in force just before its first call and dice
seeded by them. -/
def apart {κ : Type} [Clock κ] (clock : κ) :
    (Nat → Int) → Surroundings → List (List Command) → List (List Account)
  | _, _, [] => []
  | entropy, around, stretch :: rest =>
    let settings := (around.opening stretch).settings
    let dice := Twister.ofSeed (settings.seed.getD (entropy 0))
    Table.serve clock ⟨settings, dice⟩ (stretch.filterMap Command.call?) ::
      apart clock (fun n => entropy (n + 1)) (stretch.foldl Surroundings.after around) rest

/-! ## Calls at the shared table -/

/-- What a reply says of a call. -/
def Reply.account? : Reply → Option Account
  | answered ending logged => some ⟨ending, logged⟩
  | _ => none

namespace Session

variable {κ : Type}

/-- The surroundings of a session. -/
def around (s : Session κ) : Surroundings := ⟨s.environment, s.file, s.settings⟩

variable [Clock κ]

/-- What the calls of a session come to, the commands being cut where the table
is cleared. -/
def accounts (s : Session κ) (cs : List Command) : List (List Account) :=
  ((cs.zip (s.replies cs).1).splitOnP fun p => p.1.clears).map fun stretch =>
    stretch.filterMap fun p => p.2.account?

/-! ## What a step and a run do to the session -/

theorem replies_cons (s : Session κ) (c : Command) (rest : List Command) :
    s.replies (c :: rest) =
      ((s.step c).1 :: ((s.step c).2.replies rest).1, ((s.step c).2.replies rest).2) := rfl

theorem replies_append (s : Session κ) (cs ds : List Command) :
    s.replies (cs ++ ds) =
      ((s.replies cs).1 ++ ((s.replies cs).2.replies ds).1, ((s.replies cs).2.replies ds).2) := by
  induction cs generalizing s with
  | nil => rfl
  | cons c rest ih => rw [List.cons_append, replies_cons, ih, replies_cons, List.cons_append]

theorem length_replies (s : Session κ) (cs : List Command) :
    (s.replies cs).1.length = cs.length := by
  induction cs generalizing s with
  | nil => rfl
  | cons c rest ih => rw [replies_cons, List.length_cons, List.length_cons, ih]

theorem around_step (s : Session κ) (c : Command) : (s.step c).2.around = s.around.after c := by
  cases c with
  | assign fs =>
      simp only [step, around, Surroundings.after]
      cases Settings.resolve ⟨fs, s.environment, s.file⟩ <;> rfl
  | _ => rfl

theorem around_replies (s : Session κ) (cs : List Command) :
    (s.replies cs).2.around = cs.foldl Surroundings.after s.around := by
  induction cs generalizing s with
  | nil => rfl
  | cons c rest ih => rw [replies_cons, ih, around_step, List.foldl_cons]

/-- Only clearing the table uses up what chance has in store. -/
theorem entropy_replies {s : Session κ} {cs : List Command} (h : ∀ c ∈ cs, c.clears = false) :
    (s.replies cs).2.entropy = s.entropy := by
  induction cs generalizing s with
  | nil => rfl
  | cons c rest ih =>
      obtain ⟨hc, hrest⟩ := List.forall_mem_cons.mp h
      rw [replies_cons, ih hrest]
      cases c with
      | clear => cases hc
      | _ => rfl

/-- A call sets up a table, clearing it puts it away, and nothing else does
either. -/
theorem isSome_table_step (s : Session κ) (c : Command) :
    (s.step c).2.table.isSome = (c.call?.isSome || s.table.isSome && !c.clears) := by
  cases c <;> simp [step, call, Command.call?, Command.clears]

/-- There is a table at the end exactly when there was one and it was not
cleared, or a call was made since it was last cleared. -/
theorem isSome_table_replies (s : Session κ) (cs : List Command) :
    (s.replies cs).2.table.isSome ↔
      (s.table.isSome ∧ ∀ d ∈ cs, d.clears = false) ∨
        ∃ before c after, cs = before ++ .call c :: after ∧ ∀ d ∈ after, d.clears = false := by
  induction cs generalizing s with
  | nil => simp [replies]
  | cons c rest ih =>
      rw [replies_cons, ih, isSome_table_step]
      constructor
      · rintro (⟨htable, hrest⟩ | ⟨before, call, after, rfl, hafter⟩)
        · rw [Bool.or_eq_true, Bool.and_eq_true, Bool.not_eq_true'] at htable
          rcases htable with hcall | ⟨htable, hclears⟩
          · cases c with
            | call c => exact .inr ⟨[], c, rest, rfl, hrest⟩
            | _ => contradiction
          · exact .inl ⟨htable, List.forall_mem_cons.mpr ⟨hclears, hrest⟩⟩
        · exact .inr ⟨c :: before, call, after, rfl, hafter⟩
      · rintro (⟨htable, hrest⟩ | ⟨before, call, after, heq, hafter⟩)
        · obtain ⟨hclears, hrest⟩ := List.forall_mem_cons.mp hrest
          rw [htable, hclears]
          exact .inl ⟨Bool.or_true _, hrest⟩
        · rw [List.cons_eq_append_iff] at heq
          rcases heq with ⟨rfl, heq⟩ | ⟨before', rfl, rfl⟩
          · cases heq
            exact .inl ⟨rfl, hafter⟩
          · exact .inr ⟨before', call, after, rfl, hafter⟩

/-! ## A stretch of commands that does not clear the table -/

/-- What the calls among commands come to. -/
def served (s : Session κ) (cs : List Command) : List Account :=
  (s.replies cs).1.filterMap Reply.account?

theorem served_call (s : Session κ) (c : Call) (rest : List Command) :
    s.served (.call c :: rest) =
      ⟨(c.answer s.readyTable.settings ⟨s.readyTable.dice, s.clock, []⟩).1,
        (c.answer s.readyTable.settings ⟨s.readyTable.dice, s.clock, []⟩).2.log⟩ ::
          (s.call c).2.served rest := rfl

variable {κ' : Type} [Clock κ'] {s : Session κ} {stretch : List Command}

/-- Calls at a table that is set up come to what they come to at any table with
the same settings and dice. -/
theorem served_of_table (hclock : Clock.Tireless κ) (hclock' : Clock.Tireless κ')
    (hstretch : ∀ c ∈ stretch, c.clears = false) {table : Table} (htable : s.table = some table)
    {p : Supply Twister κ'} (hdice : table.dice = p.dice) (time : Timestamp) :
    (s.served stretch).map (Account.stamped time) =
      (Call.accounts table.settings (stretch.filterMap Command.call?) p).map
        (Account.stamped time) := by
  induction stretch generalizing s table p with
  | nil => rfl
  | cons c rest ih =>
      obtain ⟨hc, hrest⟩ := List.forall_mem_cons.mp hstretch
      cases c with
      | clear => cases hc
      | setVariables vs => exact ih (s := (s.step (.setVariables vs)).2) hrest htable hdice
      | assign fs => exact ih (s := (s.step (.assign fs)).2) hrest htable hdice
      | call c =>
          have hready : s.readyTable = table := by
            rw [readyTable, htable]
            rfl
          -- The session keeps the log of each call apart; at the other table one log goes on.
          let found : Supply Twister κ := ⟨table.dice, s.clock, []⟩
          obtain ⟨hending, hleft, es, hlog, hlog'⟩ :=
            c.answer_alike hclock hclock' table.settings (s := found) hdice
          have htable' : (s.call c).2.table =
              some ⟨table.settings, (c.answer table.settings found).2.dice⟩ := by
            rw [call, hready]
          change (s.served (.call c :: rest)).map _ =
            (Call.accounts table.settings (c :: rest.filterMap Command.call?) p).map _
          rw [served_call, hready, Call.accounts_cons, List.map_cons, List.map_cons,
            ih hrest htable' hleft]
          simp only [found, Account.stamped, hending time, hlog, hlog', List.nil_append,
            List.drop_left]

/-- Where there is no table, the calls of a stretch come to what they come to at
one of their own. -/
theorem served_of_no_table (hclock : Clock.Tireless κ) (hclock' : Clock.Tireless κ')
    (hstretch : ∀ c ∈ stretch, c.clears = false) (htable : s.table = none) (clock : κ')
    (time : Timestamp) :
    (s.served stretch).map (Account.stamped time) =
      ((Table.setUp (s.entropy 0) (s.around.opening stretch).settings).serve clock
        (stretch.filterMap Command.call?)).map (Account.stamped time) := by
  induction stretch generalizing s with
  | nil => rfl
  | cons c rest ih =>
      obtain ⟨hc, hrest⟩ := List.forall_mem_cons.mp hstretch
      cases c with
      | clear => cases hc
      | setVariables vs => exact ih (s := (s.step (.setVariables vs)).2) hrest htable
      | assign fs =>
          have hopening : s.around.opening (.assign fs :: rest) =
              (s.step (.assign fs)).2.around.opening rest := by
            rw [around_step]
            rfl
          rw [hopening]
          exact ih (s := (s.step (.assign fs)).2) hrest htable
      | call c =>
          -- The first call sets the table up, and finds it set up as if it had been before.
          have hready : s.readyTable = Table.setUp (s.entropy 0) s.settings := by
            rw [readyTable, htable]
            rfl
          let ready : Session κ := { s with table := some s.readyTable }
          have hserved : s.served (.call c :: rest) = ready.served (.call c :: rest) := rfl
          rw [hserved]
          exact served_of_table hclock hclock' hstretch (congrArg some hready) rfl time

/-! ## From stretches to sequences of commands -/

omit [Clock κ'] in
theorem filterMap_zip_replies (s : Session κ) (cs : List Command) :
    (cs.zip (s.replies cs).1).filterMap (fun p => p.2.account?) = s.served cs := by
  have hlength : (s.replies cs).1.length ≤ cs.length := Nat.le_of_eq (length_replies s cs)
  calc
    _ = ((cs.zip (s.replies cs).1).map Prod.snd).filterMap Reply.account? :=
      List.filterMap_map.symm
    _ = s.served cs := by rw [List.map_snd_zip hlength, served]

theorem accounts_of_stretch (hstretch : ∀ c ∈ stretch, c.clears = false) :
    s.accounts stretch = [s.served stretch] := by
  have hpairs : ∀ p ∈ stretch.zip (s.replies stretch).1, p.1.clears = false :=
    fun p hp => hstretch p.1 (List.of_mem_zip hp).1
  rw [accounts, List.splitOnP_eq_singleton hpairs, List.map_singleton, filterMap_zip_replies]

theorem accounts_append_clear (hstretch : ∀ c ∈ stretch, c.clears = false)
    (rest : List Command) :
    s.accounts (stretch ++ .clear :: rest) =
      s.served stretch :: ((s.replies stretch).2.step .clear).2.accounts rest := by
  have hlength := (length_replies s stretch).symm
  rw [accounts, replies_append, replies_cons, List.zip_append hlength, List.zip_cons_cons,
    List.splitOnP_append_cons _ _ rfl, List.map_append]
  exact congrArg (· ++ _) (accounts_of_stretch hstretch)

/-- Stretch by stretch, calls come to what they come to at tables of their own. -/
theorem accounts_eq_apart (hclock : Clock.Tireless κ) (hclock' : Clock.Tireless κ')
    (htable : s.table = none) (clock : κ') (cs : List Command) (time : Timestamp) :
    (s.accounts cs).map (List.map (Account.stamped time)) =
      (apart clock s.entropy s.around (cs.splitOnP Command.clears)).map
        (List.map (Account.stamped time)) := by
  induction cs using Command.stretch_induction generalizing s with
  | stretch cs hcs =>
      rw [accounts_of_stretch hcs, List.splitOnP_eq_singleton hcs, apart, apart,
        List.map_singleton, List.map_singleton,
        served_of_no_table hclock hclock' hcs htable clock time]
      rfl
  | clear stretch rest hstretch ih =>
      -- The next stretch finds the surroundings and the seeds that this one leaves.
      let next := ((s.replies stretch).2.step .clear).2
      have haround : next.around = stretch.foldl Surroundings.after s.around :=
        around_replies s stretch
      have hentropy : next.entropy = fun n => s.entropy (n + 1) :=
        congrArg (fun seeds n => seeds (n + 1)) (entropy_replies hstretch)
      rw [accounts_append_clear hstretch, List.splitOnP_append_cons _ _ rfl,
        List.splitOnP_eq_singleton hstretch, List.singleton_append, apart, List.map_cons,
        List.map_cons, served_of_no_table hclock hclock' hstretch htable clock time,
        ← haround, ← hentropy]
      exact congrArg _ (ih rfl)

omit [Clock κ'] in
theorem reply_assign (s : Session κ) (fs : Fields) :
    (s.step (.assign fs)).1 =
      .assigned (Settings.resolve ⟨fs, s.around.environment, s.around.file⟩) := rfl

/-- Settings that are not valid leave the whole session as it is. -/
theorem step_assign_of_invalid {fs : Fields} {first : Complaint} {rest : List Complaint}
    (h : (s.step (.assign fs)).1 = .assigned (.invalid first rest)) :
    (s.step (.assign fs)).2 = s := by
  simp only [step] at h ⊢
  injection h with hresolved
  rw [hresolved]
  rfl

/-- **A session serves its calls as tables that are not shared would.**  Let a
session begin without a table, and let its clock and that of the other tables
never fail.

1. Cut where the table is cleared, and apart from the times, its calls end in
   the same and log the same as the calls of each stretch do at one table set up
   with the settings in force just before the first of them.
2. There is a table exactly when a call was made since it was last cleared,
   whatever that call ended in.
3. At every moment, a change of settings that is found not to be valid changes
   nothing. -/
theorem serves_as_tables_apart (hclock : Clock.Tireless κ) (hclock' : Clock.Tireless κ')
    (htable : s.table = none) (clock : κ') (cs : List Command) :
    (∀ time, (s.accounts cs).map (List.map (Account.stamped time)) =
      (apart clock s.entropy s.around (cs.splitOnP Command.clears)).map
        (List.map (Account.stamped time))) ∧
    ((s.replies cs).2.table.isSome ↔
      ∃ before c after, cs = before ++ .call c :: after ∧ ∀ d ∈ after, d.clears = false) ∧
    (∀ fs first rest, ((s.replies cs).2.step (.assign fs)).1 = .assigned (.invalid first rest) →
      ((s.replies cs).2.step (.assign fs)).2 = (s.replies cs).2) := by
  refine ⟨accounts_eq_apart hclock hclock' htable clock cs, ?_,
    fun fs first rest h => step_assign_of_invalid h⟩
  rw [isSome_table_replies, htable]
  simp

/-- Variables and settings are changed before the table is set up, while it is
used and after it is cleared; one change is not valid, and one call fails. -/
def changes : List Command :=
  [.setVariables [("DICE_ROLLER_NAME", "Bones")], .assign [("seed", .int 7)],
    .call (.rollMany (.int 5)), .assign [("seed", .text "eight")], .assign [("seed", .int 9)],
    .call (.roll .null), .clear, .assign [("version", .text "2")], .call .profile]

omit [Clock κ'] in
/-- Where the settings fall back on a single die, that is what is rolled when no
notation is given. -/
theorem answer_of_missing {σ : Type} [DieSource σ] {settings : Settings} {dice after : σ}
    {clock later : κ} {n : Int} {time : Timestamp} (hfallback : settings.fallback = "1d6")
    (hdraw : DieSource.draw 6 dice = .ok n after) (hn : Decimal.Fits n)
    (hnow : Clock.now clock = .ok time later) :
    (Call.roll .null).answer settings ⟨dice, clock, []⟩ =
      (.ok (.outcome (.success ⟨"1d6", [n], n, none,
        String.ofList (Decimal.ofInt n ++ " = ".toList ++ Decimal.ofInt n), time⟩)),
        ⟨after, later, [.rolled "1d6" [n] n]⟩) := by
  have hroll : Roll.rollText "1d6" ⟨dice, clock, []⟩ = .ok (.success _) _ :=
    Roll.rollText_of_die hdraw hn hnow
  have hrun := Act.bind_of_ok (f := fun o => pure (Answer.outcome o)) hroll
  simp only [Call.answer, Call.run, Roll.roll, hfallback, hrun]
  rfl

omit [Clock κ'] in
/-- What cannot be gone through takes no die, so the call after it rolls the first
die of the seed. -/
theorem serve_of_missing (clock : κ) (settings : Settings) (entropy : Int) {later : κ}
    {seed n : Int} {after : Twister} {time : Timestamp} (hfallback : settings.fallback = "1d6")
    (hseed : settings.seed = some seed)
    (hdraw : DieSource.draw 6 (Twister.ofSeed seed) = .ok n after) (hn : Decimal.Fits n)
    (hnow : Clock.now clock = .ok time later) :
    Table.serve clock ⟨settings, Twister.ofSeed (settings.seed.getD entropy)⟩
        [.rollMany (.int 5), .roll .null] =
      [⟨.error (.notIterable "int"), []⟩,
        ⟨.ok (.outcome (.success ⟨"1d6", [n], n, none,
            String.ofList (Decimal.ofInt n ++ " = ".toList ++ Decimal.ofInt n), time⟩)),
          [.rolled "1d6" [n] n]⟩] := by
  have hrefused : ∀ p : Supply Twister κ,
      (Call.rollMany (.int 5)).answer settings p = (.error (.notIterable "int"), p) :=
    fun _ => rfl
  rw [hseed, Option.getD_some, Table.serve, Call.accounts_cons, Call.accounts_cons, hrefused,
    answer_of_missing hfallback hdraw hn hnow]
  rfl

/-- Its calls are served as by two tables apart.  The first goes by the name that
the variable gave it and is seeded with seven: it refuses to go through an
integer and then rolls the first die of that seed.  The second still goes by that
name.  One more change that is not valid changes nothing. -/
theorem serves_as_tables_apart_of_changes :
    let s : Session Stopped := .start ⟨.epoch⟩ 0 .defaults
    let wrong : Fields := [("seed", .text "ten")]
    let n : Int := ((Twister.ofSeed 7).below 6).1 + 1
    (∀ time, (s.accounts changes).map (List.map (Account.stamped time)) =
      (apart (Stopped.mk .epoch) s.entropy s.around (changes.splitOnP Command.clears)).map
        (List.map (Account.stamped time))) ∧
    (s.accounts changes).map (List.map (Account.stamped .epoch)) =
      [[⟨.error (.notIterable "int"), []⟩,
        ⟨.ok (.outcome (.success ⟨"1d6", [n], n, none,
            String.ofList (Decimal.ofInt n ++ " = ".toList ++ Decimal.ofInt n), .epoch⟩)),
          [.rolled "1d6" [n] n]⟩],
        [⟨.ok (.profile ⟨"Bones", "2", Settings.defaults.description⟩), []⟩]] ∧
    (s.replies changes).2.table.isSome ∧
    ((s.replies changes).2.step (.assign wrong)).2 = (s.replies changes).2 := by
  intro s wrong n
  have hn : Decimal.Fits n := by
    have hbounds := DieSource.fair_twister 6 (Twister.ofSeed 7) _ n (by decide)
      (DieSource.draw_twister 6 _)
    have hlimit : 10 ^ 1 ≤ 10 ^ Decimal.limit := Nat.pow_le_pow_right (by decide) (by decide)
    rw [Decimal.fits_iff]
    omega
  let around := changes.foldl Surroundings.after s.around
  let first := changes.take 6
  let second := changes.drop 7
  have hcomplaints : (Settings.resolve ⟨wrong, around.environment, around.file⟩).complaints =
      [⟨.field "seed", .unreadableInteger⟩] := by
    decide +kernel +revert
  have hfirst : (s.around.opening first).settings =
      { Settings.defaults with name := "Bones", seed := some 7 } := by
    decide +kernel
  have hsecond : ((first.foldl Surroundings.after s.around).opening second).settings =
      { Settings.defaults with name := "Bones", version := "2" } := by
    decide +kernel
  obtain ⟨haccounts, htable, hwrong⟩ := serves_as_tables_apart Clock.tireless_stopped
    Clock.tireless_stopped (s := s) rfl (Stopped.mk .epoch) changes
  refine ⟨haccounts, (haccounts .epoch).trans ?_,
    htable.mpr ⟨changes.take 8, .profile, [], rfl, List.forall_mem_nil _⟩,
    hwrong wrong ⟨.field "seed", .unreadableInteger⟩ [] ?_⟩
  · have hcut : changes.splitOnP Command.clears = [first, second] := rfl
    have hcalls : first.filterMap Command.call? = [.rollMany (.int 5), .roll .null] := rfl
    have hcalls' : second.filterMap Command.call? = [.profile] := rfl
    rw [hcut, apart, apart, apart, hfirst, hsecond, hcalls, hcalls']
    have hserved := serve_of_missing (Stopped.mk .epoch)
      { Settings.defaults with name := "Bones", seed := some 7 } (s.entropy 0) rfl rfl
      (DieSource.draw_twister 6 (Twister.ofSeed 7)) hn rfl
    rw [hserved]
    rfl
  · rw [reply_assign, around_replies]
    exact congrArg _ (Checked.eq_invalid_of_complaints hcomplaints)

end Session

end Tabletop
