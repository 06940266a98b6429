import Croupier.Proofs.Json.Depth
import Croupier.Proofs.Settings.Written
import Croupier.Settings.Store

/-!
# Croupier.Proofs.Settings.Opening

What it comes to when a file is opened, whatever stands in it. `Says v s` is what it means for a
value to say certain settings, `Fails v e` for it to say none, with the first fault in the order
in which the parts are read.

* `ofJson_eq_ok_iff`, `ofJson_eq_error_iff`: the two against the reader of settings.
* `opening_falls_back`: any content.
* `opening_fails_at_infinity`, `openAt_brackets`: contents that no store is opened from.
-/

namespace Croupier

/-! ## What stands under a key -/

namespace Json

/-- What the last field with the key holds, or the default if no field has the key. -/
inductive Under (key : String) (default : Json) (fs : List (String × Json)) : Json → Prop where
  | given {front back : List (String × Json)} {v : Json} (h : fs = front ++ (key, v) :: back)
      (hlast : ∀ f ∈ back, f.1 ≠ key) : Under key default fs v
  | missing (h : ∀ f ∈ fs, f.1 ≠ key) : Under key default fs default

theorem get?_eq_none_iff {key : String} {fs : List (String × Json)} :
    get? key fs = none ↔ ∀ f ∈ fs, f.1 ≠ key := by
  rw [get?, Option.map_eq_none_iff, List.find?_eq_none]
  simp

theorem get?_eq_some_iff {key : String} {fs : List (String × Json)} {v : Json} :
    get? key fs = some v ↔
      ∃ front back, fs = front ++ (key, v) :: back ∧ ∀ f ∈ back, f.1 ≠ key := by
  rw [get?, Option.map_eq_some_iff]
  constructor
  · rintro ⟨⟨k, v⟩, hfind, rfl⟩
    obtain ⟨hk, back, front, hfs, hback⟩ := List.find?_eq_some_iff_append.1 hfind
    cases eq_of_beq hk
    refine ⟨front.reverse, back.reverse, ?_, fun f hf => ?_⟩
    · rw [← List.reverse_reverse fs, hfs]
      simp
    · simpa using hback f (List.mem_reverse.1 hf)
  · rintro ⟨front, back, rfl, hback⟩
    refine ⟨(key, v), List.find?_eq_some_iff_append.2 ⟨beq_self_eq_true key, back.reverse,
      front.reverse, by simp, fun f hf => ?_⟩, rfl⟩
    simpa using hback f (List.mem_reverse.1 hf)

end Json

namespace Settings

open Json

theorem under_iff {key : String} {default : Json} {fs : List (String × Json)} {v : Json} :
    Under key default fs v ↔ valueOr default key fs = v := by
  rw [valueOr]
  constructor
  · rintro (⟨h, hlast⟩ | h)
    · rw [get?_eq_some_iff.2 ⟨_, _, h, hlast⟩, Option.getD_some]
    · rw [get?_eq_none_iff.2 h, Option.getD_none]
  · rintro rfl
    cases hget : get? key fs with
    | none => exact .missing (get?_eq_none_iff.1 hget)
    | some v =>
      obtain ⟨front, back, h, hlast⟩ := get?_eq_some_iff.1 hget
      exact .given h hlast

/-! ## Whole numbers -/

/-- The values stand for these whole numbers, one by one. -/
def Converts (vs : List Json) (ns : List Int) : Prop :=
  List.Forall₂ (fun v n => v.toInt = .ok n) vs ns

theorem integer_eq_ok_iff {v : Json} {n : Int} : integer v = .ok n ↔ v.toInt = .ok n := by
  rw [integer]
  cases v.toInt <;> simp

theorem integer_eq_error_iff {v : Json} {e : Unreadable} :
    integer v = .error e ↔ ∃ cause, v.toInt = .error cause ∧ e = .notInteger cause := by
  rw [integer]
  cases v.toInt <;> simp [eq_comm]

theorem integers_eq_ok_iff {vs : List Json} {ns : List Int} :
    integers vs = .ok ns ↔ Converts vs ns := by
  induction vs generalizing ns with
  | nil =>
    constructor
    · rintro ⟨⟩
      exact .nil
    · rintro ⟨⟩
      rfl
  | cons v vs ih =>
    rw [integers]
    constructor
    · intro h
      split at h
      · cases h
      rename_i n hv
      split at h
      · cases h
      rename_i ns hvs
      cases h
      exact .cons (integer_eq_ok_iff.1 hv) (ih.1 hvs)
    · rintro (_ | ⟨hv, hvs⟩)
      rw [integer_eq_ok_iff.2 hv]
      simp only
      rw [ih.2 hvs]

/-- The first value that stands for no whole number counts. -/
theorem integers_eq_error_iff {vs : List Json} {e : Unreadable} :
    integers vs = .error e ↔
      ∃ front v back ns cause, vs = front ++ v :: back ∧ Converts front ns ∧
        v.toInt = .error cause ∧ e = .notInteger cause := by
  induction vs with
  | nil => simp [integers]
  | cons v vs ih =>
    rw [integers]
    constructor
    · intro h
      split at h
      · rename_i hv
        cases h
        obtain ⟨cause, hcause, rfl⟩ := integer_eq_error_iff.1 hv
        exact ⟨[], v, vs, [], cause, rfl, .nil, hcause, rfl⟩
      rename_i n hv
      split at h
      · rename_i hvs
        cases h
        obtain ⟨front, w, back, ns, cause, rfl, hfront, hw⟩ := ih.1 hvs
        exact ⟨v :: front, w, back, n :: ns, cause, rfl, .cons (integer_eq_ok_iff.1 hv) hfront, hw⟩
      · cases h
    · rintro ⟨front, w, back, ns, cause, hvs, hfront, hw⟩
      cases hfront with
      | nil =>
        cases hvs
        rw [integer_eq_error_iff.2 ⟨cause, hw⟩]
      | cons hv hfront =>
        cases hvs
        rw [integer_eq_ok_iff.2 hv]
        simp only
        rw [ih.2 ⟨_, w, back, _, cause, rfl, hfront, hw⟩]

/-! ## What a value says -/

/-- The developers listed under their key. -/
def Lists (top : List (String × Json)) (ns : List Int) : Prop :=
  ∃ list items, Under "dev_user_ids" (.array []) top list ∧ elements list = .ok items ∧
    Converts items ns

/-- What the value under a key comes to as a whole number. -/
def Gives (key : String) (default : Int) (fs : List (String × Json))
    (result : Except NotInteger Int) : Prop :=
  ∃ v, Under key (.int default) fs v ∧ v.toInt = result

inductive Says : Json → Settings → Prop where
  | intro {top dice : List (String × Json)} {s : Settings} (hdevelopers : Lists top s.developers)
      (hdice : Under "dice" (.object []) top (.object dice))
      (hmaxDice : Gives "max_dice" 100 dice (.ok s.maxDice))
      (hblockSize : Gives "entropy_block_size" 128 dice (.ok s.blockSize)) : Says (.object top) s

inductive Fails : Json → Unreadable → Prop where
  | notAnObject {v : Json} (h : ∀ fs, v ≠ .object fs) : Fails v (.notAnObject v.kind)
  | notAList {top : List (String × Json)} {list : Json}
      (hlist : Under "dev_user_ids" (.array []) top list)
      (h : elements list = .error (.notAList list.kind)) :
      Fails (.object top) (.notAList list.kind)
  | developer {top : List (String × Json)} {list v : Json} {front back : List Json}
      {ns : List Int} {cause : NotInteger} (hlist : Under "dev_user_ids" (.array []) top list)
      (hitems : elements list = .ok (front ++ v :: back)) (hfront : Converts front ns)
      (hv : v.toInt = .error cause) : Fails (.object top) (.notInteger cause)
  | dice {top : List (String × Json)} {ns : List Int} {v : Json} (hdevelopers : Lists top ns)
      (hdice : Under "dice" (.object []) top v) (h : ∀ fs, v ≠ .object fs) :
      Fails (.object top) (.notAnObject v.kind)
  | maxDice {top dice : List (String × Json)} {ns : List Int} {cause : NotInteger}
      (hdevelopers : Lists top ns) (hdice : Under "dice" (.object []) top (.object dice))
      (h : Gives "max_dice" 100 dice (.error cause)) : Fails (.object top) (.notInteger cause)
  | blockSize {top dice : List (String × Json)} {ns : List Int} {n : Int} {cause : NotInteger}
      (hdevelopers : Lists top ns) (hdice : Under "dice" (.object []) top (.object dice))
      (hmaxDice : Gives "max_dice" 100 dice (.ok n))
      (h : Gives "entropy_block_size" 128 dice (.error cause)) :
      Fails (.object top) (.notInteger cause)

section Parts

variable {v : Json} {fs : List (String × Json)} {e : Unreadable}

theorem fields_eq_ok_iff : fields v = .ok fs ↔ v = .object fs := by
  cases v <;> simp [fields]

theorem fields_eq_error_iff :
    fields v = .error e ↔ (∀ fs, v ≠ .object fs) ∧ e = .notAnObject v.kind := by
  cases v <;> simp [fields, eq_comm]

theorem elements_error (h : elements v = .error e) : e = .notAList v.kind := by
  cases v <;> cases h <;> rfl

theorem lists_iff {ns : List Int} : Lists fs ns ↔
    ∃ items, elements (valueOr (.array []) "dev_user_ids" fs) = .ok items ∧
      integers items = .ok ns := by
  constructor
  · rintro ⟨list, items, hlist, hitems, hns⟩
    exact ⟨items, under_iff.1 hlist ▸ hitems, integers_eq_ok_iff.2 hns⟩
  · rintro ⟨items, hitems, hns⟩
    exact ⟨_, items, under_iff.2 rfl, hitems, integers_eq_ok_iff.1 hns⟩

theorem gives_iff {key : String} {default : Int} {result : Except NotInteger Int} :
    Gives key default fs result ↔ (valueOr (.int default) key fs).toInt = result := by
  constructor
  · rintro ⟨v, hv, hresult⟩
    exact under_iff.1 hv ▸ hresult
  · exact fun h => ⟨_, under_iff.2 rfl, h⟩

end Parts

theorem ok_bind {ε α β : Type} (a : α) (f : α → Except ε β) : (Except.ok a >>= f) = f a :=
  rfl

theorem error_bind {ε α β : Type} (e : ε) (f : α → Except ε β) :
    (Except.error e >>= f) = .error e :=
  rfl

theorem error_of_bind {ε α β : Type} {x : Except ε α} {f : α → Except ε β} {e : ε}
    (h : (x >>= f) = .error e) : x = .error e ∨ ∃ a, x = .ok a ∧ f a = .error e := by
  cases x with
  | error e => cases h; exact .inl rfl
  | ok a => exact .inr ⟨a, rfl, h⟩

/-- Past the developers. -/
theorem ofJson_of_lists {top : List (String × Json)} {ns : List Int} (h : Lists top ns) :
    ofJson (.object top) = do
      let dice ← fields (valueOr (.object []) "dice" top)
      let maxDice ← integer (valueOr (.int 100) "max_dice" dice)
      let blockSize ← integer (valueOr (.int 128) "entropy_block_size" dice)
      return { developers := ns, maxDice := maxDice, blockSize := blockSize } := by
  obtain ⟨items, hitems, hns⟩ := lists_iff.1 h
  rw [ofJson, fields_eq_ok_iff.2 rfl, ok_bind, hitems, ok_bind, hns, ok_bind]

/-- Past the opening brace of the dice as well. -/
theorem ofJson_of_dice {top dice : List (String × Json)} {ns : List Int} (h : Lists top ns)
    (hdice : Under "dice" (.object []) top (.object dice)) :
    ofJson (.object top) = do
      let maxDice ← integer (valueOr (.int 100) "max_dice" dice)
      let blockSize ← integer (valueOr (.int 128) "entropy_block_size" dice)
      return { developers := ns, maxDice := maxDice, blockSize := blockSize } := by
  rw [ofJson_of_lists h, under_iff.1 hdice, fields_eq_ok_iff.2 rfl, ok_bind]

theorem ofJson_eq_ok_iff {v : Json} {s : Settings} : ofJson v = .ok s ↔ Says v s := by
  constructor
  · intro h
    obtain ⟨top, htop, h⟩ := ok_of_bind h
    obtain ⟨items, hitems, h⟩ := ok_of_bind h
    obtain ⟨developers, hdevelopers, h⟩ := ok_of_bind h
    obtain ⟨dice, hdice, h⟩ := ok_of_bind h
    obtain ⟨maxDice, hmaxDice, h⟩ := ok_of_bind h
    obtain ⟨blockSize, hblockSize, h⟩ := ok_of_bind h
    cases h
    rw [fields_eq_ok_iff.1 htop]
    exact ⟨lists_iff.2 ⟨items, hitems, hdevelopers⟩, under_iff.2 (fields_eq_ok_iff.1 hdice),
      gives_iff.2 (integer_eq_ok_iff.1 hmaxDice), gives_iff.2 (integer_eq_ok_iff.1 hblockSize)⟩
  · rintro ⟨hdevelopers, hdice, hmaxDice, hblockSize⟩
    have hmaxDice := integer_eq_ok_iff.2 (gives_iff.1 hmaxDice)
    have hblockSize := integer_eq_ok_iff.2 (gives_iff.1 hblockSize)
    rw [ofJson_of_dice hdevelopers hdice, hmaxDice, ok_bind, hblockSize]
    rfl

theorem fails_of_ofJson {v : Json} {e : Unreadable} (h : ofJson v = .error e) : Fails v e := by
  obtain htop | ⟨top, htop, h⟩ := error_of_bind h
  · obtain ⟨hv, rfl⟩ := fields_eq_error_iff.1 htop
    exact .notAnObject hv
  rw [fields_eq_ok_iff.1 htop]
  obtain hlist | ⟨items, hitems, h⟩ := error_of_bind h
  · cases elements_error hlist
    exact .notAList (under_iff.2 rfl) hlist
  obtain hitem | ⟨developers, hdevelopers, h⟩ := error_of_bind h
  · obtain ⟨front, v, back, ns, cause, rfl, hfront, hv, rfl⟩ := integers_eq_error_iff.1 hitem
    exact .developer (under_iff.2 rfl) hitems hfront hv
  have hlists : Lists top developers := lists_iff.2 ⟨items, hitems, hdevelopers⟩
  obtain hdice | ⟨dice, hdice, h⟩ := error_of_bind h
  · obtain ⟨hv, rfl⟩ := fields_eq_error_iff.1 hdice
    exact .dice hlists (under_iff.2 rfl) hv
  have hdice : Under "dice" (.object []) top (.object dice) :=
    under_iff.2 (fields_eq_ok_iff.1 hdice)
  obtain hcap | ⟨maxDice, hmaxDice, h⟩ := error_of_bind h
  · obtain ⟨cause, hcause, rfl⟩ := integer_eq_error_iff.1 hcap
    exact .maxDice hlists hdice (gives_iff.2 hcause)
  obtain hblock | ⟨blockSize, -, h⟩ := error_of_bind h
  · obtain ⟨cause, hcause, rfl⟩ := integer_eq_error_iff.1 hblock
    exact .blockSize hlists hdice (gives_iff.2 (integer_eq_ok_iff.1 hmaxDice)) (gives_iff.2 hcause)
  · cases h

theorem Fails.ofJson {v : Json} {e : Unreadable} (h : Fails v e) :
    Settings.ofJson v = .error e := by
  cases h with
  | notAnObject h => rw [Settings.ofJson, fields_eq_error_iff.2 ⟨h, rfl⟩, error_bind]
  | notAList hlist h =>
    rw [Settings.ofJson, fields_eq_ok_iff.2 rfl, ok_bind, under_iff.1 hlist, h, error_bind]
  | developer hlist hitems hfront hv =>
    rw [Settings.ofJson, fields_eq_ok_iff.2 rfl, ok_bind, under_iff.1 hlist, hitems, ok_bind,
      integers_eq_error_iff.2 ⟨_, _, _, _, _, rfl, hfront, hv, rfl⟩, error_bind]
  | dice hdevelopers hdice h =>
    rw [ofJson_of_lists hdevelopers, under_iff.1 hdice, fields_eq_error_iff.2 ⟨h, rfl⟩, error_bind]
  | maxDice hdevelopers hdice h =>
    have hcap := integer_eq_error_iff.2 ⟨_, gives_iff.1 h, rfl⟩
    rw [ofJson_of_dice hdevelopers hdice, hcap, error_bind]
  | blockSize hdevelopers hdice hmaxDice h =>
    have hmaxDice := integer_eq_ok_iff.2 (gives_iff.1 hmaxDice)
    have hblock := integer_eq_error_iff.2 ⟨_, gives_iff.1 h, rfl⟩
    rw [ofJson_of_dice hdevelopers hdice, hmaxDice, ok_bind, hblock, error_bind]

theorem ofJson_eq_error_iff {v : Json} {e : Unreadable} : ofJson v = .error e ↔ Fails v e :=
  ⟨fails_of_ofJson, Fails.ofJson⟩

/-! ## What a file holds -/

theorem fromUTF8?_eq_some_iff {content : ByteArray} {text : String} :
    String.fromUTF8? content = some text ↔ content = text.toUTF8 := by
  constructor
  · intro h
    rw [String.fromUTF8?] at h
    split at h
    · cases h
      rfl
    · cases h
  · rintro rfl
    exact dif_pos text.isValidUTF8

/-- The bytes are the text of the value. -/
def Holds (nesting : Nat) (content : ByteArray) (v : Json) : Prop :=
  ∃ text : String, content = text.toUTF8 ∧ Json.ofString nesting text = .ok v

section Content

variable {nesting : Nat} {content : ByteArray}

theorem ofBytes_eq_iff {result : Except Unreadable Settings} (hnotText : result ≠ .error .notText)
    (hnotJson : ∀ e, result ≠ .error (.notJson e)) :
    ofBytes nesting content = result ↔ ∃ v, Holds nesting content v ∧ ofJson v = result := by
  constructor
  · intro h
    rw [ofBytes] at h
    split at h
    · exact absurd h.symm hnotText
    rename_i text htext
    split at h
    · exact absurd h.symm (hnotJson _)
    · rename_i v hv
      exact ⟨v, ⟨text, fromUTF8?_eq_some_iff.1 htext, hv⟩, h⟩
  · rintro ⟨v, ⟨text, rfl, hv⟩, rfl⟩
    exact ofBytes_toUTF8 hv

theorem ofBytes_eq_ok_iff {s : Settings} :
    ofBytes nesting content = .ok s ↔ ∃ v, Holds nesting content v ∧ Says v s := by
  have hread : ofBytes nesting content = .ok s ↔ _ := ofBytes_eq_iff nofun nofun
  simpa only [ofJson_eq_ok_iff] using hread

theorem ofBytes_eq_notJson_iff {e : Unread} :
    ofBytes nesting content = .error (.notJson e) ↔
      ∃ text : String, content = text.toUTF8 ∧ Json.ofString nesting text = .error e := by
  constructor
  · intro h
    rw [ofBytes] at h
    split at h
    · cases h
    rename_i text htext
    split at h
    · rename_i hread
      cases h
      exact ⟨text, fromUTF8?_eq_some_iff.1 htext, hread⟩
    · cases fails_of_ofJson h
  · rintro ⟨text, rfl, hread⟩
    rw [ofBytes, fromUTF8?_eq_some_iff.2 rfl]
    simp only
    rw [hread]

theorem ofBytes_eq_tooDeep_iff {c : Container} :
    ofBytes nesting content = .error (.notJson (.tooDeep c)) ↔
      ∃ text : String, content = text.toUTF8 ∧
        Json.ofString nesting text = .error (.tooDeep c) ∧ nesting < openings text.toList := by
  rw [ofBytes_eq_notJson_iff]
  constructor
  · rintro ⟨text, hcontent, hread⟩
    exact ⟨text, hcontent, hread, openings_of_tooDeep hread⟩
  · rintro ⟨text, hcontent, hread, -⟩
    exact ⟨text, hcontent, hread⟩

end Content

namespace Store

section Load

variable {host : Host} {content : ByteArray}

theorem load_eq_ok_iff {s : Settings} :
    load host (.file content) = .ok (⟨s, .file content⟩, []) ↔
      ofBytes host.nesting content = .ok s := by
  rw [load]
  split <;> rename_i hread <;> simp [hread]

theorem load_eq_error_iff {e : Unopenable} :
    load host (.file content) = .error e ↔
      e = .notInteger .infinite ∧
          ofBytes host.nesting content = .error (.notInteger .infinite) ∨
        ∃ c, e = .tooDeep c ∧ ofBytes host.nesting content = .error (.notJson (.tooDeep c)) := by
  rw [load]
  cases hread : ofBytes host.nesting content with
  | ok s => simp
  | error cause =>
    cases cause with
    | notInteger cause => cases cause <;> simp [eq_comm]
    | notJson cause => cases cause <;> simp [eq_comm]
    | notText | notAnObject | notAList => simp

theorem load_eq_ok {s : Store} {records : List Record}
    (h : load host (.file content) = .ok (s, records)) :
    s.slot = .file content ∧
      (records = [] ∨ s.settings = {} ∧ ∃ e, ofBytes host.nesting content = .error e ∧
        records = [unreadable (e.message host content)]) := by
  rw [load] at h
  split at h <;> cases h
  · exact ⟨rfl, .inl rfl⟩
  · exact ⟨rfl, .inr ⟨rfl, _, ‹_›, rfl⟩⟩

end Load

/-- A store is opened from a file of any content, unless reading meets an infinite number where a
whole number is asked for, or nests too deeply. The settings are those that the file says, with the
default for each key that is missing; a file that says none gives the defaults and one error on
record, which tells what is wrong with it. The file stays as it is. -/
theorem opening_falls_back (host : Host) (content : ByteArray) :
    (∀ s, openAt host (.folder (.file content)) = .ok (⟨s, .file content⟩, []) ↔
      ∃ v, Holds host.nesting content v ∧ Says v s) ∧
    (∀ s records, openAt host (.folder (.file content)) = .ok (s, records) →
      s.slot = .file content ∧
        (records = [] ∨ s.settings = {} ∧ ∃ e, ofBytes host.nesting content = .error e ∧
          records = [unreadable (e.message host content)])) ∧
    (∀ e, openAt host (.folder (.file content)) = .error e ↔
      e = .notInteger .infinite ∧
          (∃ v, Holds host.nesting content v ∧ Fails v (.notInteger .infinite)) ∨
        ∃ c, e = .tooDeep c ∧ ∃ text : String, content = text.toUTF8 ∧
          Json.ofString host.nesting text = .error (.tooDeep c) ∧
          host.nesting < openings text.toList) := by
  refine ⟨fun s => ?_, fun s records h => load_eq_ok h, fun e => ?_⟩
  · rw [openAt, load_eq_ok_iff, ofBytes_eq_ok_iff]
  · have hinfinite : ofBytes host.nesting content = .error (.notInteger .infinite) ↔ _ :=
      ofBytes_eq_iff nofun nofun
    rw [openAt, load_eq_error_iff, hinfinite]
    simp only [ofJson_eq_error_iff, ofBytes_eq_tooDeep_iff]

/-- A cap without bounds opens nothing. -/
theorem opening_fails_at_infinity :
    openAt .common (.folder (.file "\x7b\"dice\": \x7b\"max_dice\": Infinity\x7d\x7d".toUTF8)) =
      .error (.notInteger .infinite) := by
  have hdice : FieldsRead 986 _ [("max_dice", .infinity false)] :=
    .last (by decide) (.infinity 986) isGaps_nil
  have hread : Reads Host.common.nesting _
      (.object [("dice", .object [("max_dice", .infinity false)])]) :=
    .object isGaps_nil (.last (by decide) (.object isGaps_nil hdice) isGaps_nil)
  have htext : Json.ofString Host.common.nesting
      "\x7b\"dice\": \x7b\"max_dice\": Infinity\x7d\x7d" = .ok _ :=
    Reads.ofString hread
  rw [openAt, load_eq_error_iff]
  exact .inl ⟨rfl, ofBytes_toUTF8 htext⟩

/-- Nor do so many brackets in a row. -/
theorem openAt_brackets (host : Host) {n : Nat} (hn : host.nesting < n) :
    openAt host (.folder (.file (String.ofList (List.replicate n '[')).toUTF8)) =
      .error (.tooDeep .array) := by
  rw [openAt, load_eq_error_iff]
  exact .inr ⟨.array, rfl, ofBytes_eq_notJson_iff.2 ⟨_, rfl, tooDeep_of_brackets hn⟩⟩

end Store
end Settings
end Croupier
