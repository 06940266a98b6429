import Croupier.Archive.Log
import Croupier.Proofs.Archive.Retention
import Mathlib.Data.List.DropRight

/-!
# Croupier.Proofs.Archive.Continuity

Rolling over loses no line and doubles none. The rollovers cut what is written into segments; the
newest thirty that are closed lie in backups, the open one in `latest.log`.

* `Filed.line`, `Filed.rollOver`: what one event does to the folder.
* `no_line_lost`: any run whose rollovers come in the order of their dates.
-/

namespace Croupier
namespace Archive
namespace Log

/-- The file that is rolled over at a time is that of the day before. -/
def fileDate (time : Int) : Date :=
  Date.ofDays ((time - Date.secondsPerDay) / Date.secondsPerDay)

namespace Event

def isRollOver : Event → Bool
  | .line _ => false
  | .rollOver _ => true

def fileDate? : Event → Option Date
  | .line _ => none
  | .rollOver time => some (fileDate time)

/-- What an event adds to a log that lets levels from `threshold` on through. -/
def written (threshold : Level) : Event → String
  | .line l => if threshold.rank ≤ l.level.rank then l.render else ""
  | .rollOver _ => ""

end Event

def fileDates (events : List Event) : List Date :=
  events.filterMap Event.fileDate?

/-- All that gets through, in order. -/
def transcript (threshold : Level) (events : List Event) : String :=
  String.join (events.map (Event.written threshold))

/-- What gets through before the first rollover, between one and the next, and after the last. -/
def segments (threshold : Level) (events : List Event) : List String :=
  (events.splitOnP Event.isRollOver).map (transcript threshold)

/-- The line that a log begins with. -/
def opening (time : String) : Line :=
  ⟨time, "", .info, "==== Bot started at " ++ time ++ " ===="⟩

def backupName (d : Date) : String :=
  d.text ++ ".log.gz"

def backup (b : Date × String) : String × Entry :=
  (backupName b.1, .file (.gzip (.text b.2)))

/-! ## Segments -/

section Segments

variable {threshold : Level} {past : List Event}

theorem transcript_append (events events' : List Event) :
    transcript threshold (events ++ events') =
      transcript threshold events ++ transcript threshold events' := by
  rw [transcript, List.map_append, String.join_append]
  rfl

theorem transcript_singleton (e : Event) : transcript threshold [e] = e.written threshold := by
  simp [transcript]

theorem join_segments (events : List Event) :
    String.join (segments threshold events) = transcript threshold events := by
  induction events with
  | nil => simp [segments, transcript]
  | cons e events ih =>
    rw [segments] at ih
    rw [segments, List.splitOnP_cons_eq_if_modifyHead]
    obtain ⟨first, rest, hsplit⟩ :=
      List.exists_cons_of_ne_nil (List.splitOnP_ne_nil Event.isRollOver events)
    cases e with
    | rollOver time =>
      rw [if_pos (show (Event.rollOver time).isRollOver = true from rfl), List.map_cons,
        String.join_cons, ih]
      simp [transcript, Event.written]
    | line l =>
      rw [hsplit, List.map_cons, String.join_cons] at ih
      rw [if_neg (by simp [Event.isRollOver]), hsplit, List.modifyHead_cons, List.map_cons,
        String.join_cons, transcript, List.map_cons, String.join_cons, transcript, List.map_cons,
        String.join_cons, String.append_assoc]
      exact congrArg _ ih

/-- One more element goes into the last piece. -/
theorem exists_splitOnP_concat {α : Type} {p : α → Bool} {x : α} (hx : p x = false)
    (xs : List α) :
    ∃ done last, xs.splitOnP p = done ++ [last] ∧ (xs ++ [x]).splitOnP p = done ++ [last ++ [x]] := by
  induction xs with
  | nil => exact ⟨[], [], by simp, by simp [List.splitOnP_cons_eq_if_modifyHead, hx]⟩
  | cons y xs ih =>
    obtain ⟨done, last, hxs, hconcat⟩ := ih
    rw [List.cons_append, List.splitOnP_cons_eq_if_modifyHead, List.splitOnP_cons_eq_if_modifyHead,
      hxs, hconcat]
    by_cases hy : p y = true
    · exact ⟨[] :: done, last, by simp [hy], by simp [hy]⟩
    · cases done with
      | nil => exact ⟨[], y :: last, by simp [hy], by simp [hy]⟩
      | cons first done => exact ⟨(y :: first) :: done, last, by simp [hy], by simp [hy]⟩

theorem segments_concat_line {done : List String} {pending : String}
    (h : segments threshold past = done ++ [pending]) (l : Line) :
    segments threshold (past ++ [.line l]) =
      done ++ [pending ++ Event.written threshold (.line l)] := by
  obtain ⟨pieces, last, hpast, hconcat⟩ :=
    exists_splitOnP_concat (p := Event.isRollOver) (x := .line l) rfl past
  rw [segments, hpast, List.map_append] at h
  obtain ⟨hdone, hlast⟩ := List.append_inj' h rfl
  rw [segments, hconcat, List.map_append, hdone, ← List.singleton_inj.1 hlast]
  simp only [List.map_cons, List.map_nil]
  rw [transcript_append, transcript_singleton]

theorem segments_concat_rollOver (time : Int) :
    segments threshold (past ++ [.rollOver time]) = segments threshold past ++ [""] := by
  rw [segments, List.splitOnP_append_cons past [] rfl, List.map_append]
  rfl

end Segments

/-! ## The folder -/

theorem rtake_concat_rtake {α : Type} (xs : List α) (n : Nat) (x : α) :
    (xs.rtake n ++ [x]).rtake n = (xs ++ [x]).rtake n := by
  cases n with
  | zero => simp
  | succ n =>
    rw [List.rtake_concat_succ, List.rtake_concat_succ, List.rtake, List.rtake, List.rtake,
      List.drop_drop, List.length_drop]
    congr 2
    omega

section Names

variable {d e : Date}

theorem backupName_rollOver (hd : d.IsRegular) :
    Folder.backupName (latest ++ "." ++ d.text) = backupName d := by
  have hdot : '.' ∉ d.text.toList := by
    rw [hd.toList_text, Date.padded]
    intro hmem
    simp only [List.mem_append, List.mem_cons] at hmem
    rcases hmem with hmem | hmem | hmem | hmem | hmem
    · exact absurd (Numeral.isDigit_of_mem_places hmem) (by decide)
    · exact absurd hmem (by decide)
    · exact absurd (Numeral.isDigit_of_mem_places hmem) (by decide)
    · exact absurd hmem (by decide)
    · exact absurd (Numeral.isDigit_of_mem_places hmem) (by decide)
  exact Folder.backupName_of_afterLastDot ⟨hdot, .inr ⟨latest, rfl⟩⟩

theorem backupName_eq (hd : d.IsRegular) : backupName d = dateName d := by
  rw [backupName, dateName, ← hd.toList_text, String.ofList_toList]

theorem isBackupName_backupName (hd : d.IsRegular) : isBackupName (backupName d) = true := by
  rw [backupName_eq hd]
  exact isBackupName_dateName d

theorem backupName_lt (hd : d.IsRegular) (he : e.IsRegular) (h : d.Before e) :
    backupName d < backupName e := by
  rw [backupName_eq hd, backupName_eq he]
  exact dateName_lt hd.inPlaces he.inPlaces h

theorem backupName_lt_latest (hd : d.IsRegular) : backupName d < latest := by
  have hdigit : (d.year.toNat / 10 / 10 / 10 % 10).digitChar < 'l' := by
    have hdigits : ∀ n < 10, n.digitChar < 'l' := by decide
    exact hdigits _ (Nat.mod_lt _ (by decide))
  rw [String.lt_iff_toList_lt, backupName, String.toList_append, hd.toList_text]
  exact List.cons_lt_cons_iff.2 (.inl hdigit)

end Names

/-- The state of a log after the events `past`: `done` are the closed segments, `pending` is the
open one. -/
structure Filed (threshold : Level) (past : List Event) (done : List String) (pending : String)
    (log : Log) : Prop where
  threshold_eq : log.threshold = threshold
  console_eq : log.console = transcript threshold past
  segments_eq : segments threshold past = done ++ [pending]
  length_eq : (fileDates past).length = done.length
  regular : ∀ d ∈ fileDates past, d.IsRegular
  entries_eq : log.folder.entries =
    (((fileDates past).zip done).rtake 30).map backup ++ [(latest, .file (.text pending))]

namespace Filed

variable {threshold : Level} {past : List Event} {done : List String} {pending : String} {log : Log}

/-- Every backup in the folder is that of a rollover. -/
theorem exists_date {e : String × Entry}
    (he : e ∈ (((fileDates past).zip done).rtake 30).map backup) :
    ∃ d ∈ fileDates past, e.1 = backupName d ∧ e.2 ≠ .folder := by
  obtain ⟨b, hb, rfl⟩ := List.mem_map.1 he
  have hzip : b ∈ (fileDates past).zip done := List.mem_of_mem_drop hb
  exact ⟨b.1, (List.of_mem_zip hzip).1, rfl, nofun⟩

theorem lt_latest (h : Filed threshold past done pending log) :
    ∀ e ∈ (((fileDates past).zip done).rtake 30).map backup, e.1 < latest := by
  intro e he
  obtain ⟨d, hd, hname, -⟩ := exists_date he
  rw [hname]
  exact backupName_lt_latest (h.regular d hd)

theorem get?_latest (h : Filed threshold past done pending log) :
    log.folder.get? latest = some (.file (.text pending)) :=
  Folder.get?_of_append h.entries_eq h.lt_latest

theorem current (h : Filed threshold past done pending log) : log.current = pending := by
  rw [Log.current, h.get?_latest]

theorem fileDates_line (past : List Event) (l : Line) :
    fileDates (past ++ [.line l]) = fileDates past := by
  simp [fileDates, Event.fileDate?]

theorem write_eq (h : Filed threshold past done pending log) {l : Line} (hl : 0 < l.level.rank) :
    (log.write l).threshold = threshold ∧
      (log.write l).console = log.console ++ Event.written threshold (.line l) ∧
      (log.write l).folder.entries = (((fileDates past).zip done).rtake 30).map backup ++
        [(latest, .file (.text (pending ++ Event.written threshold (.line l))))] := by
  have hadmits : log.admits l.level = decide (threshold.rank ≤ l.level.rank) := by
    simp [admits, hl, h.threshold_eq]
  by_cases hlevel : threshold.rank ≤ l.level.rank
  · have hwritten : Event.written threshold (.line l) = l.render := if_pos hlevel
    rw [Log.write, hadmits, if_pos (decide_eq_true hlevel), hwritten, h.current]
    exact ⟨h.threshold_eq, rfl, Folder.entries_put_replace h.entries_eq h.lt_latest⟩
  · have hwritten : Event.written threshold (.line l) = "" := if_neg hlevel
    rw [Log.write, hadmits, if_neg (by simpa using hlevel), hwritten, String.append_empty,
      String.append_empty]
    exact ⟨h.threshold_eq, rfl, h.entries_eq⟩

theorem line (h : Filed threshold past done pending log) {l : Line} (hl : 0 < l.level.rank) :
    Filed threshold (past ++ [.line l]) done (pending ++ Event.written threshold (.line l))
      (log.write l) := by
  obtain ⟨hthreshold, hconsole, hentries⟩ := h.write_eq hl
  refine ⟨hthreshold, ?_, segments_concat_line h.segments_eq l, ?_, ?_, ?_⟩
  · rw [transcript_append, transcript_singleton, hconsole, h.console_eq]
  · rw [fileDates_line]
    exact h.length_eq
  · rw [fileDates_line]
    exact h.regular
  · rw [fileDates_line]
    exact hentries

/-- The file of the open segment becomes the newest backup, and the oldest of thirty goes. -/
theorem entries_rotate (h : Filed threshold past done pending log) {d : Date} (hd : d.IsRegular)
    (hnew : ∀ d' ∈ fileDates past, d'.Before d) :
    (log.folder.rotate latest (latest ++ "." ++ d.text)).2.entries =
      (((fileDates past).zip done ++ [(d, pending)]).rtake 30).map backup := by
  have hbefore : ∀ e ∈ (((fileDates past).zip done).rtake 30).map backup,
      e.1 < backupName d := by
    intro e he
    obtain ⟨d', hd', hname, -⟩ := exists_date he
    rw [hname]
    exact backupName_lt (h.regular d' hd') hd (hnew d' hd')
  have hnone : log.folder.get? (backupName d) = none := by
    refine Folder.get?_eq_none fun hmem => ?_
    obtain ⟨e, he, hname⟩ := List.mem_map.1 hmem
    rw [h.entries_eq] at he
    rcases List.mem_append.1 he with he | he
    · exact String.lt_irrefl _ (hname ▸ hbefore e he)
    · rw [List.mem_singleton.1 he] at hname
      exact String.lt_irrefl _ (hname ▸ backupName_lt_latest hd)
  have hput : ((log.folder.put (backupName d) (.file (.gzip (.text pending)))).remove latest).entries =
      (((fileDates past).zip done).rtake 30 ++ [(d, pending)]).map backup := by
    rw [Folder.entries_remove, Folder.entries_put_between h.entries_eq hbefore (backupName_lt_latest hd),
      List.filter_append, List.map_append]
    refine congrArg₂ _ (List.filter_eq_self.2 fun e he => ?_) ?_
    · simpa using fun heq => String.lt_irrefl _ (heq ▸ h.lt_latest e he)
    · have hne : backupName d ≠ latest := fun heq =>
        String.lt_irrefl _ (heq ▸ backupName_lt_latest hd)
      simp [hne, backup]
  rw [Folder.rotate, backupName_rollOver hd, Folder.compress, h.get?_latest, hnone]
  simp only
  rw [backupCount, show (30 : Int) = (30 : Nat) from rfl, Folder.entries_prune_of_backups]
  · rw [hput, List.length_map, ← List.map_drop, ← List.rtake, rtake_concat_rtake]
  · intro e he
    rw [hput, List.map_append] at he
    rcases List.mem_append.1 he with he | he
    · obtain ⟨d', hd', hname, hfile⟩ := exists_date he
      rw [hname]
      exact ⟨isBackupName_backupName (h.regular d' hd'), hfile⟩
    · rw [List.mem_singleton.1 he]
      exact ⟨isBackupName_backupName hd, nofun⟩

theorem rollOver (h : Filed threshold past done pending log) {time : Int}
    (hlow : 1000 ≤ (fileDate time).year) (hhigh : (fileDate time).year ≤ 9999)
    (hnew : ∀ d ∈ fileDates past, d.Before (fileDate time)) :
    ∃ log', log.rollOver time = .ok log' ∧
      Filed threshold (past ++ [.rollOver time]) (done ++ [pending]) "" log' := by
  have hd : (fileDate time).IsRegular := Date.isRegular_ofDays hlow hhigh
  have hdate : Date.ofSeconds? (time - Date.secondsPerDay) = .ok (fileDate time) :=
    Date.ofSeconds?_eq hlow hhigh
  have hdates : fileDates (past ++ [.rollOver time]) = fileDates past ++ [fileDate time] := by
    simp [fileDates, Event.fileDate?]
  have hregular : ∀ d ∈ fileDates past ++ [fileDate time], d.IsRegular := by
    intro d hmem
    rcases List.mem_append.1 hmem with hmem | hmem
    · exact h.regular d hmem
    · rw [List.mem_singleton.1 hmem]
      exact hd
  let folder := (log.folder.rotate latest (latest ++ "." ++ (fileDate time).text)).2
  refine ⟨{ log with folder := folder.put latest (.file (.text "")) }, ?_, h.threshold_eq, ?_, ?_, ?_,
    ?_, ?_⟩
  · rw [Log.rollOver, hdate]
  · rw [transcript_append, transcript_singleton, ← h.console_eq]
    exact String.append_empty.symm
  · rw [segments_concat_rollOver, h.segments_eq]
  · rw [hdates, List.length_append, List.length_append, h.length_eq]
    rfl
  · rw [hdates]
    exact hregular
  · rw [hdates, List.zip_append h.length_eq]
    refine Folder.entries_put_last (h.entries_rotate hd hnew) fun e he => ?_
    obtain ⟨b, hb, rfl⟩ := List.mem_map.1 he
    have hzip : b ∈ (fileDates past ++ [fileDate time]).zip (done ++ [pending]) := by
      rw [List.zip_append h.length_eq]
      exact List.mem_of_mem_drop hb
    exact backupName_lt_latest (hregular b.1 (List.of_mem_zip hzip).1)

theorem run (h : Filed threshold past done pending log) {events : List Event}
    (hlevels : ∀ l, .line l ∈ events → 0 < l.level.rank)
    (hyears : ∀ d ∈ fileDates events, 1000 ≤ d.year ∧ d.year ≤ 9999)
    (hdates : (fileDates (past ++ events)).Pairwise Date.Before) :
    ∃ log' done' pending', log.run events = .ok log' ∧
      Filed threshold (past ++ events) done' pending' log' := by
  induction events generalizing past done pending log with
  | nil => exact ⟨log, done, pending, rfl, by rw [List.append_nil]; exact h⟩
  | cons e events ih =>
    have happend : past ++ e :: events = past ++ [e] ++ events := by simp
    have hlevels' : ∀ l, .line l ∈ events → 0 < l.level.rank := fun l hl =>
      hlevels l (List.mem_cons_of_mem e hl)
    rw [happend] at hdates ⊢
    cases e with
    | line l => exact ih (h.line (hlevels l List.mem_cons_self)) hlevels' hyears hdates
    | rollOver time =>
      obtain ⟨hyear, hyears'⟩ := List.forall_mem_cons.1
        (show ∀ d ∈ fileDate time :: fileDates events, _ from hyears)
      have hnew : ∀ d ∈ fileDates past, d.Before (fileDate time) := by
        rw [fileDates, List.filterMap_append, List.filterMap_append, List.append_assoc] at hdates
        intro d hd
        exact (List.pairwise_append.1 hdates).2.2 d hd _ List.mem_cons_self
      obtain ⟨log', hrollOver, hfiled⟩ := h.rollOver hyear.1 hyear.2 hnew
      obtain ⟨log'', done', pending', hrun, hfiled'⟩ := ih hfiled hlevels' hyears' hdates
      refine ⟨log'', done', pending', ?_, hfiled'⟩
      rw [Log.run, step, hrollOver]
      exact hrun

theorem start (threshold : Level) (time : String) :
    ∃ pending, Filed threshold [.line (opening time)] [] pending (start threshold time) := by
  let log : Log := ⟨threshold, "", Folder.empty.put latest (.file (.text ""))⟩
  have hlog : Filed threshold [] [] "" log := by
    refine ⟨rfl, rfl, ?_, rfl, List.forall_mem_nil _, rfl⟩
    simp [segments, transcript]
  have hlevel : 0 < (opening time).level.rank := show (0 : Int) < 20 by decide
  exact ⟨_, hlog.line hlevel⟩

/-- The closed segments, oldest first, and the open one make up the transcript. -/
theorem transcript_eq (h : Filed threshold past done pending log) :
    transcript threshold past = String.join done ++ pending := by
  rw [← join_segments, h.segments_eq, String.join_append]
  simp

end Filed

/-- After any lines and rollovers that come in the order of their dates, everything that got through
is on the console, and in the folder lie the newest thirty closed segments, each in the backup of
its date, and the open one, and nothing else. So backups and `latest.log` together read like the
console, but for the segments that were closed before the newest thirty. -/
theorem no_line_lost (threshold : Level) (time : String) (events : List Event)
    (hlevels : ∀ l, .line l ∈ events → 0 < l.level.rank)
    (hyears : ∀ d ∈ fileDates events, 1000 ≤ d.year ∧ d.year ≤ 9999)
    (hdates : (fileDates events).Pairwise Date.Before) :
    let all := .line (opening time) :: events
    let closed := (fileDates events).zip (segments threshold all)
    ∃ log last, (start threshold time).run events = .ok log ∧
      log.console = transcript threshold all ∧
      closed.length = (fileDates events).length ∧
      log.folder.entries =
        (closed.rtake 30).map (fun b => (b.1.text ++ ".log.gz", .file (.gzip (.text b.2)))) ++
          [("latest.log", .file (.text last))] ∧
      (closed.rtake 30).length = min 30 (fileDates events).length ∧
      transcript threshold all =
        String.join ((closed.rdrop 30).map (·.2)) ++
          (String.join ((closed.rtake 30).map (·.2)) ++ last) := by
  intro all closed
  obtain ⟨pending, hstart⟩ := Filed.start threshold time
  obtain ⟨log, done, last, hrun, hfiled⟩ := hstart.run hlevels hyears hdates
  have hlength : (fileDates events).length = done.length := hfiled.length_eq
  have hclosed : closed = (fileDates events).zip done := by
    have hsegments : segments threshold all = done ++ [last] := hfiled.segments_eq
    have hzip : (fileDates events ++ []).zip (done ++ [last]) =
        (fileDates events).zip done ++ [].zip [last] := List.zip_append hlength
    rw [List.append_nil, List.zip_nil_left, List.append_nil] at hzip
    exact (congrArg (fileDates events).zip hsegments).trans hzip
  have hcount : closed.length = (fileDates events).length := by
    rw [hclosed, List.length_zip, ← hlength, Nat.min_self]
  refine ⟨log, last, hrun, hfiled.console_eq, hcount, ?_, ?_, ?_⟩
  · rw [hclosed]
    exact hfiled.entries_eq
  · rw [List.rtake, List.length_drop, hcount]
    omega
  · have hdone : closed.map (·.2) = done := by
      rw [hclosed, List.map_snd_zip (by omega)]
    rw [← String.append_assoc, ← String.join_append, ← List.map_append, List.rdrop, List.rtake,
      List.take_append_drop, hdone]
    exact hfiled.transcript_eq

/-- One rollover a day, thirty-two in all: the two oldest backups are gone. -/
theorem no_line_lost_past_thirty :
    let events : List Event := (List.range 32).flatMap fun day =>
      [.line ⟨"noon", "dicebot", .error, Nat.repr day⟩, .rollOver (86400 * (day + 1))]
    ∃ log, (start .info "now").run events = .ok log ∧
      log.console = transcript .info (.line (opening "now") :: events) ∧
      log.folder.names.head? = some "1970-01-03.log.gz" ∧ log.folder.names.length = 31 := by
  intro events
  have hlevels : ∀ l, .line l ∈ events → 0 < l.level.rank := by
    intro l hl
    obtain ⟨day, -, hl⟩ := List.mem_flatMap.1 hl
    rcases List.mem_cons.1 hl with hl | hl
    · cases hl
      exact show (0 : Int) < 40 by decide
    · cases List.mem_singleton.1 hl
  have hyears : ∀ d ∈ fileDates events, 1000 ≤ d.year ∧ d.year ≤ 9999 := by decide +kernel
  have hdates : (fileDates events).Pairwise Date.Before := by decide +kernel
  obtain ⟨log, last, hrun, hconsole, hclosed, hentries, hlength, -⟩ :=
    no_line_lost .info "now" events hlevels hyears hdates
  refine ⟨log, hrun, hconsole, ?_, ?_⟩
  · have holdest : ((((fileDates events).zip
        (segments .info (.line (opening "now") :: events))).rtake 30).map fun b =>
          b.1.text ++ ".log.gz").head? = some "1970-01-03.log.gz" := by decide +kernel
    rw [Folder.names, hentries, List.map_append, List.map_map, List.head?_append]
    exact congrArg (Option.or · _) holdest
  · have hcount : (fileDates events).length = 32 := by decide +kernel
    rw [Folder.names, hentries, List.length_map, List.length_append, List.length_map, hlength, hcount]
    rfl

end Log
end Archive
end Croupier
