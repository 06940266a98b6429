import Croupier.Proofs.Json.Reads
import Croupier.Proofs.Json.Short
import Croupier.Settings.Reader

/-!
# Croupier.Proofs.Settings.Written

What is written of the settings is read back: `ofBytes_render`, for settings of numbers that can
be written. Settings that were read are of that kind: `isWritable_of_ofBytes`.
-/

namespace Croupier
namespace Settings

open Json Numeral

namespace IsWritable

variable {s : Settings}

theorem join (h : s.IsWritable) {id : Int} (hid : isWritable id = true) :
    IsWritable { s with developers := s.developers ++ [id] } := by
  refine ⟨fun n hn => ?_, h.maxDice, h.blockSize⟩
  rcases List.mem_append.1 hn with hn | hn
  · exact h.developers n hn
  · rw [List.mem_singleton.1 hn]
    exact hid

theorem leave (h : s.IsWritable) (id : Int) :
    IsWritable { s with developers := s.developers.erase id } :=
  ⟨fun n hn => h.developers n (List.mem_of_mem_erase hn), h.maxDice, h.blockSize⟩

theorem cap (h : s.IsWritable) {n : Int} (hn : isWritable n = true) :
    IsWritable { s with maxDice := n } :=
  ⟨h.developers, hn, h.blockSize⟩

end IsWritable

/-- The object that the text of the settings stands for. -/
def toJson (s : Settings) : Json :=
  .object [("dev_user_ids", .array (s.developers.map .int)),
    ("dice", .object [("max_dice", .int s.maxDice), ("entropy_block_size", .int s.blockSize)])]

/-! ## The text taken apart -/

def newLine (depth : Nat) : List Char :=
  '\n' :: List.replicate (2 * depth) ' '

theorem isGaps_newLine (depth : Nat) : IsGaps (newLine depth) := by
  intro c hc
  rcases List.mem_cons.1 hc with rfl | hc
  · rfl
  · rw [List.eq_of_mem_replicate hc]
    rfl

/-- The developers after the first gap. -/
def developerItems (id : Int) : List Int → List Char
  | [] => (ofInt id).toList ++ (newLine 1 ++ [']'])
  | next :: ids => (ofInt id).toList ++ ',' :: (newLine 2 ++ developerItems next ids)

theorem toList_intercalate_developers (id : Int) (ids : List Int) :
    (",\n".intercalate ((id :: ids).map fun id => "    " ++ ofInt id)).toList ++ "\n  ]".toList =
      "    ".toList ++ developerItems id ids := by
  induction ids generalizing id with
  | nil => simp [developerItems, newLine]
  | cons next ids ih =>
    have htail := ih next
    rw [List.map_cons] at htail
    rw [List.map_cons, List.map_cons, String.intercalate_cons_cons, String.toList_append,
      List.append_assoc, htail, developerItems]
    simp [newLine]

theorem toList_renderDevelopers (id : Int) (ids : List Int) :
    (renderDevelopers (id :: ids)).toList = '[' :: (newLine 2 ++ developerItems id ids) := by
  have htext := toList_intercalate_developers id ids
  rw [renderDevelopers, if_neg (by simp), String.toList_append, String.toList_append,
    List.append_assoc, htext]
  rfl

theorem toList_render (s : Settings) : s.render.toList =
    '\x7b' :: (newLine 1 ++
      (fieldText "dev_user_ids" (renderDevelopers s.developers).toList ++ ',' :: (newLine 1 ++
        (fieldText "dice" ('\x7b' :: (newLine 2 ++
          (fieldText "max_dice" (ofInt s.maxDice).toList ++ ',' :: (newLine 2 ++
            (fieldText "entropy_block_size" (ofInt s.blockSize).toList ++
              (newLine 1 ++ ['\x7d'])))))) ++ (newLine 0 ++ ['\x7d']))))) := by
  -- `rw` would first build the equation of `render`, which takes long for so much text
  delta render
  simp only [fieldText, String.toList_append, List.append_assoc, List.cons_append]
  rfl

/-! ## Reading it back -/

theorem itemsRead_developers {id : Int} {ids : List Int}
    (h : ∀ n ∈ id :: ids, isWritable n = true) (room : Nat) :
    ItemsRead room (developerItems id ids) ((id :: ids).map .int) := by
  induction ids generalizing id with
  | nil => exact .last (.int (h id List.mem_cons_self) room) (isGaps_newLine 1)
  | cons next ids ih =>
    exact .cons (.int (h id List.mem_cons_self) room) (isGaps_newLine 2)
      (ih fun n hn => h n (List.mem_cons_of_mem id hn))

theorem reads_developers {ids : List Int} (h : ∀ n ∈ ids, isWritable n = true) (room : Nat) :
    Reads (room + 1) (renderDevelopers ids).toList (.array (ids.map .int)) := by
  cases ids with
  | nil => exact .emptyArray room
  | cons id ids =>
    rw [toList_renderDevelopers]
    exact .array (isGaps_newLine 2) (itemsRead_developers h room)

theorem reads_render {s : Settings} (h : s.IsWritable) (room : Nat) :
    Reads (room + 2) s.render.toList s.toJson := by
  have hdice : FieldsRead room _ [("max_dice", .int s.maxDice),
      ("entropy_block_size", .int s.blockSize)] :=
    .cons (by decide) (.int h.maxDice room) (isGaps_newLine 2)
      (.last (by decide) (.int h.blockSize room) (isGaps_newLine 1))
  rw [toList_render]
  exact .object (isGaps_newLine 1)
    (.cons (by decide) (reads_developers h.developers room) (isGaps_newLine 1)
      (.last (by decide) (.object (isGaps_newLine 2) hdice) (isGaps_newLine 0)))

theorem integers_map_int (ids : List Int) : integers (ids.map .int) = .ok ids := by
  induction ids with
  | nil => rfl
  | cons id ids ih =>
    rw [List.map_cons, integers, ih]
    rfl

theorem ofJson_toJson (s : Settings) : ofJson s.toJson = .ok s := by
  change (integers (s.developers.map .int) >>= fun ids => Except.ok { s with developers := ids }) = _
  rw [integers_map_int]
  rfl

theorem ofBytes_toUTF8 {nesting : Nat} {text : String} {v : Json}
    (h : Json.ofString nesting text = .ok v) : ofBytes nesting text.toUTF8 = ofJson v := by
  have htext : String.fromUTF8? text.toUTF8 = some text := dif_pos text.isValidUTF8
  rw [ofBytes, htext]
  simp only
  rw [h]

theorem ofBytes_render {s : Settings} (h : s.IsWritable) {nesting : Nat} (hnesting : 2 ≤ nesting) :
    ofBytes nesting s.render.toUTF8 = .ok s := by
  obtain ⟨room, rfl⟩ : ∃ room, nesting = room + 2 := ⟨nesting - 2, by omega⟩
  have hread : Json.ofString (room + 2) s.render = .ok s.toJson := (reads_render h room).ofString
  rw [ofBytes_toUTF8 hread, ofJson_toJson]

/-! ## What was read -/

section Read

variable {v : Json} {fs : List (String × Json)}

theorem short_of_fields (hv : v.Short) (h : fields v = .ok fs) : ∀ f ∈ fs, f.2.Short := by
  cases hv with
  | object hfields => cases h; exact hfields
  | _ => cases h

theorem short_of_elements (hv : v.Short) {vs : List Json} (h : elements v = .ok vs) :
    ∀ w ∈ vs, w.Short := by
  cases hv with
  | array hitems => cases h; exact hitems
  | string s =>
    cases h
    intro w hw
    obtain ⟨c, -, rfl⟩ := List.mem_map.1 hw
    exact .string _
  | object hfields =>
    cases h
    intro w hw
    obtain ⟨key, -, rfl⟩ := List.mem_map.1 hw
    exact .string key
  | _ => cases h

theorem short_of_valueOr {default : Json} (hdefault : default.Short) (key : String)
    (h : ∀ f ∈ fs, f.2.Short) : (valueOr default key fs).Short := by
  rw [valueOr, get?]
  cases hfind : fs.reverse.find? fun field => field.1 == key with
  | none => exact hdefault
  | some field => exact h field (List.mem_reverse.1 (List.mem_of_find?_eq_some hfind))

theorem isWritable_of_integer (hv : v.Short) {n : Int} (h : integer v = .ok n) :
    isWritable n = true := by
  rw [integer] at h
  split at h
  · rename_i hread
    cases h
    exact hv.isWritable hread
  · cases h

theorem isWritable_of_integers {vs : List Json} (hvs : ∀ v ∈ vs, v.Short) {ns : List Int}
    (h : integers vs = .ok ns) : ∀ n ∈ ns, isWritable n = true := by
  induction vs generalizing ns with
  | nil =>
    cases h
    exact List.forall_mem_nil _
  | cons v vs ih =>
    obtain ⟨hv, hvs⟩ := List.forall_mem_cons.1 hvs
    rw [integers] at h
    split at h
    · cases h
    rename_i n hread
    split at h
    · cases h
    rename_i ns hrest
    cases h
    exact List.forall_mem_cons.2 ⟨isWritable_of_integer hv hread, ih hvs hrest⟩

end Read

theorem ok_of_bind {ε α β : Type} {x : Except ε α} {f : α → Except ε β} {b : β}
    (h : (x >>= f) = .ok b) : ∃ a, x = .ok a ∧ f a = .ok b := by
  cases x with
  | error e => cases h
  | ok a => exact ⟨a, rfl, h⟩

theorem isWritable_of_ofJson {v : Json} (hv : v.Short) {s : Settings} (h : ofJson v = .ok s) :
    s.IsWritable := by
  obtain ⟨top, htop, h⟩ := ok_of_bind h
  obtain ⟨items, hitems, h⟩ := ok_of_bind h
  obtain ⟨developers, hdevelopers, h⟩ := ok_of_bind h
  obtain ⟨dice, hdice, h⟩ := ok_of_bind h
  obtain ⟨maxDice, hmaxDice, h⟩ := ok_of_bind h
  obtain ⟨blockSize, hblockSize, h⟩ := ok_of_bind h
  cases h
  have htopShort := short_of_fields hv htop
  have hitemsShort := short_of_elements
    (short_of_valueOr (.array (List.forall_mem_nil _)) "dev_user_ids" htopShort) hitems
  have hdiceShort := short_of_fields
    (short_of_valueOr (.object (List.forall_mem_nil _)) "dice" htopShort) hdice
  refine ⟨isWritable_of_integers hitemsShort hdevelopers, ?_, ?_⟩
  · exact isWritable_of_integer (short_of_valueOr (.int (by decide)) "max_dice" hdiceShort) hmaxDice
  · exact isWritable_of_integer
      (short_of_valueOr (.int (by decide)) "entropy_block_size" hdiceShort) hblockSize

theorem isWritable_of_ofBytes {nesting : Nat} {content : ByteArray} {s : Settings}
    (h : ofBytes nesting content = .ok s) : s.IsWritable := by
  rw [ofBytes] at h
  split at h
  · cases h
  split at h
  · cases h
  rename_i v hread
  exact isWritable_of_ofJson (short_of_ofString hread) h

theorem isWritable_default : IsWritable {} :=
  ⟨List.forall_mem_nil _, by decide, by decide⟩

end Settings
end Croupier
