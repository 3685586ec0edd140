/-
  MerkleAirdrop.Proofs.Layout.Weighing
  ────────────────────────────────────
  **WHAT IS REFUSED BECAUSE A COUNT WAS WEIGHED FIRST.**

  A vector's count is weighed against the bytes left before any element is
  read, at one byte for each element at least.  `Kind.readUnweighed` is the
  reader that takes the count at its word: it reads so many elements one
  after the other and fails when the bytes run out.  The two agree but for
  elements of no width, of which the weighing reader takes no more than there
  are bytes left behind the count (`Kind.Roomy`):

      Layout.decode_iff_unweighed    decoding succeeds exactly when it does
                                     without weighing and all vectors of
                                     widthless elements are roomy

  Elements that take bytes are never refused early
  (`Layout.roomy_of_takesBytes`).
-/
import MerkleAirdrop.Proofs.Except
import MerkleAirdrop.Proofs.Layout.Canonical
import MerkleAirdrop.Proofs.Layout.Honest
import MerkleAirdrop.Proofs.Layout.RoundTrip

namespace MerkleAirdrop

open Kind (HasWidth TakesBytes)

/-! ## §1. Reading without weighing. -/

/-- Reads a value of a kind; a vector's elements are read one after the other
whatever the count says. -/
def Kind.readUnweighed : Kind → Reader Value
  | .array element length => do
    return .list (← Reader.repeated element.readUnweighed length.toNat)
  | .vec element => do
    let count := Bytes.toNat (← Reader.block countWidth).toList
    return .list (← Reader.repeated element.readUnweighed count)
  | kind => kind.read

namespace Layout

/-- Reads one value per field without weighing counts. -/
def readUnweighed (layout : Layout) : Reader (List Value) :=
  layout.fields.mapM (·.kind.readUnweighed)

/-- One value per field, read from the start of the buffer without weighing
counts. -/
def decodeUnweighed (layout : Layout) (data : List UInt8) : Except Error (List Value) :=
  layout.readUnweighed.run (.start data)

end Layout

/-! ## §2. Room for elements of no width. -/

/-- `P` holds of each item and the number of bytes that are left where it
begins, each item taking its size of the `left` bytes. -/
def Along {α : Type} (size : α → Nat) (P : Nat → α → Prop) : Nat → List α → Prop
  | _, [] => True
  | left, item :: items => P left item ∧ Along size P (left - size item) items

theorem Along.of_forall {α : Type} {size : α → Nat} {P : Nat → α → Prop} {items : List α}
    (h : ∀ item ∈ items, ∀ left, P left item) : ∀ left, Along size P left items := by
  induction items with
  | nil =>
    intro left
    trivial
  | cons item items ih =>
    intro left
    rw [List.forall_mem_cons] at h
    exact ⟨h.1 left, ih h.2 _⟩

/-- Of a value that begins where `left` bytes are left: no vector of elements
without width has more of them than there are bytes behind its count. -/
def Kind.Roomy : Kind → Nat → Value → Prop
  | .array element _, left, .list items =>
    Along (fun item => (element.wire item).length) element.Roomy left items
  | .vec element, left, .list items =>
    (element.span = 0 → items.length ≤ left - countWidth) ∧
      Along (fun item => (element.wire item).length) element.Roomy (left - countWidth) items
  | _, _, _ => True

/-- The same of one value per field. -/
def Layout.Roomy (layout : Layout) (left : Nat) (values : List Value) : Prop :=
  Along (fun p : Field × Value => (p.1.kind.wire p.2).length)
    (fun left p => p.1.kind.Roomy left p.2) left (layout.fields.zip values)

/-- Where elements take bytes there is always room. -/
theorem Kind.roomy_of_takesBytes (k : Kind) : k.VecElements TakesBytes →
    ∀ (left : Nat) (v : Value), k.Roomy left v := by
  induction k with
  | array element length ih =>
    intro h left v
    cases v with
    | list items => exact .of_forall (fun item _ left => ih h left item) left
    | _ => trivial
  | vec element ih =>
    intro h left v
    cases v with
    | list items =>
      refine ⟨fun hspan => ?_, .of_forall (fun item _ left => ih h.2 left item) _⟩
      -- an element that takes bytes is not widthless
      obtain ⟨w, hw, hpos⟩ := h.1
      have hw := element.width_eq_span hw
      omega
    | _ => trivial
  | _ =>
    intro _ left v
    trivial

theorem Layout.roomy_of_takesBytes {layout : Layout} (h : layout.VecElements TakesBytes)
    (left : Nat) (values : List Value) : layout.Roomy left values := by
  refine .of_forall (fun p hp left => ?_) left
  exact p.1.kind.roomy_of_takesBytes (h p.1 (List.of_mem_zip hp).1) left p.2

/-! ## §3. Two readers in step. -/

namespace Reader

variable {α β : Type}

/-- `weighed` reads what `plain` reads, where there is room for it; a value
takes its size of the bytes left. -/
structure Weighs (weighed plain : Reader α) (size : α → Nat) (room : Nat → α → Prop) : Prop where
  ok_iff : ∀ {c c' : Cursor} {a : α},
    weighed c = .ok (a, c') ↔ plain c = .ok (a, c') ∧ room c.rest.length a
  left_eq : ∀ {c c' : Cursor} {a : α}, plain c = .ok (a, c') →
    c'.rest.length = c.rest.length - size a

/-- A value and then a list of values stay in step if each of them does: the
list begins where the value ends. -/
theorem Weighs.cons {weighed plain : Reader α} {weigheds plains : Reader (List α)}
    {size : α → Nat} {room : Nat → α → Prop} {rooms rooms' : Nat → List α → Prop}
    (h : Weighs weighed plain size room)
    (hrest : ∀ {c c' : Cursor} {as : List α},
      weigheds c = .ok (as, c') ↔ plains c = .ok (as, c') ∧ rooms c.rest.length as)
    (hrooms : ∀ left a as, rooms' left (a :: as) ↔ room left a ∧ rooms (left - size a) as)
    {c c' : Cursor} {as : List α} :
    (do let a ← weighed; let rest ← weigheds; return a :: rest : Reader (List α)) c
        = .ok (as, c') ↔
      (do let a ← plain; let rest ← plains; return a :: rest : Reader (List α)) c
        = .ok (as, c') ∧ rooms' c.rest.length as := by
  constructor
  · intro hread
    obtain ⟨a, c₁, hhead, hread⟩ := ok_of_bind hread
    obtain ⟨rest, htail, rfl⟩ := map_eq_ok_iff.1 hread
    obtain ⟨hhead, hroom⟩ := h.ok_iff.1 hhead
    obtain ⟨htail, hroomRest⟩ := hrest.1 htail
    rw [h.left_eq hhead] at hroomRest
    refine ⟨?_, (hrooms _ a rest).2 ⟨hroom, hroomRest⟩⟩
    rw [bind_ok hhead]
    exact map_eq_ok_iff.2 ⟨rest, htail, rfl⟩
  · rintro ⟨hread, hroom⟩
    obtain ⟨a, c₁, hhead, hread⟩ := ok_of_bind hread
    obtain ⟨rest, htail, rfl⟩ := map_eq_ok_iff.1 hread
    obtain ⟨hroom, hroomRest⟩ := (hrooms _ a rest).1 hroom
    rw [← h.left_eq hhead] at hroomRest
    rw [bind_ok (h.ok_iff.2 ⟨hhead, hroom⟩)]
    exact map_eq_ok_iff.2 ⟨rest, hrest.2 ⟨htail, hroomRest⟩, rfl⟩

/-- **Repeated reads stay in step.** -/
theorem Weighs.repeated {weighed plain : Reader α} {size : α → Nat} {room : Nat → α → Prop}
    (h : Weighs weighed plain size room) (n : Nat) : ∀ {c c' : Cursor} {as : List α},
    weighed.repeated n c = .ok (as, c') ↔
      plain.repeated n c = .ok (as, c') ∧ Along size room c.rest.length as := by
  induction n with
  | zero =>
    intro c c' as
    constructor
    · intro hread
      cases hread
      exact ⟨rfl, trivial⟩
    · rintro ⟨hread, -⟩
      exact hread
  | succ n ih =>
    intro c c' as
    exact h.cons ih fun _ _ _ => Iff.rfl

end Reader

/-! ## §4. One value. -/

/-- What is passed over is as long as what it is settled to. -/
theorem Cursor.Passed.left_eq {c c' : Cursor} {mask : List Bool} {bytes : List UInt8}
    (h : c.Passed c' mask bytes) : c'.rest.length = c.rest.length - bytes.length := by
  obtain ⟨used, hrest, -, hmask, hsettle⟩ := h
  rw [hrest, ← hsettle, List.length_append, length_settle hmask, Nat.add_sub_cancel_left]

namespace Kind

/-- A vector that was read without weighing: its count and its elements. -/
theorem readUnweighed_vec_eq_ok_iff {element : Kind} {c c' : Cursor} {v : Value} :
    (vec element).readUnweighed c = .ok (v, c') ↔
      ∃ (b : Block countWidth) (c₁ : Cursor) (items : List Value),
        Reader.block countWidth c = .ok (b, c₁) ∧
        element.readUnweighed.repeated (Bytes.toNat b.toList) c₁ = .ok (items, c') ∧
        .list items = v := by
  constructor
  · intro h
    obtain ⟨b, c₁, hblock, h⟩ := Reader.ok_of_bind h
    obtain ⟨items, hitems, hv⟩ := Reader.map_eq_ok_iff.1 h
    exact ⟨b, c₁, items, hblock, hitems, hv⟩
  · rintro ⟨b, c₁, items, hblock, hitems, hv⟩
    rw [readUnweighed, Reader.bind_ok hblock]
    exact Reader.map_eq_ok_iff.2 ⟨items, hitems, hv⟩

/-- What was read without weighing fits too, and is the wire form of what was
passed over. -/
theorem passed_of_readUnweighed (k : Kind) : ∀ {c c' : Cursor} {v : Value},
    k.readUnweighed c = .ok (v, c') → k.Fits v ∧ c.Passed c' (k.boolMask v) (k.wire v) := by
  induction k with
  | array element length ih =>
    intro c c' v h
    obtain ⟨items, hread, rfl⟩ := Reader.map_eq_ok_iff.1 h
    obtain ⟨hlength, hfits, hpassed⟩ := Cursor.Passed.repeated ih _ hread
    exact ⟨⟨hlength, hfits⟩, hpassed⟩
  | vec element ih =>
    intro c c' v h
    obtain ⟨b, c₁, items, hblock, hread, rfl⟩ := readUnweighed_vec_eq_ok_iff.1 h
    obtain ⟨hlength, hfits, hpassed⟩ := Cursor.Passed.repeated ih _ hread
    have hcount : items.length < countLimit := hlength ▸ b.toNat_lt
    have hpassedCount := Cursor.Passed.block hblock
    rw [b.length_toList, ← b.ofNat_toNat, ← hlength] at hpassedCount
    exact ⟨⟨hcount, hfits⟩, hpassedCount.trans hpassed⟩
  | _ => exact passed_of_read _

theorem left_eq_of_readUnweighed (k : Kind) {c c' : Cursor} {v : Value}
    (h : k.readUnweighed c = .ok (v, c')) :
    c'.rest.length = c.rest.length - (k.wire v).length :=
  (k.passed_of_readUnweighed h).2.left_eq

/-- Elements that were read weigh no more than what they were read from, if
those of no width are no more than its bytes. -/
theorem weight_le_of_repeated {element : Kind} {n : Nat} {c c' : Cursor} {items : List Value}
    (h : element.readUnweighed.repeated n c = .ok (items, c'))
    (hroom : element.span = 0 → items.length ≤ c.rest.length) :
    n * max element.span 1 ≤ c.rest.length := by
  obtain ⟨hlength, hfits, used, hrest, -, hmask, hsettle⟩ :=
    Cursor.Passed.repeated element.passed_of_readUnweighed n h
  have hspans : items.length * element.span ≤ (items.flatMap element.wire).length :=
    mul_le_length_flatMap fun item hitem => element.span_le_wire (hfits item hitem)
  have hused : (items.flatMap element.wire).length = used.length := by
    rw [← hsettle, length_settle hmask]
  rw [hrest, List.length_append] at hroom ⊢
  rw [← hlength]
  rcases Nat.eq_zero_or_pos element.span with hzero | hpos
  · have hitems := hroom hzero
    rw [hzero, Nat.max_eq_right (Nat.zero_le 1), Nat.mul_one]
    exact hitems
  · rw [Nat.max_eq_left hpos]
    omega

/-- **A value is read exactly when it is read without weighing and there is
room for its elements of no width.** -/
theorem weighs (k : Kind) : k.VecElements HasWidth →
    Reader.Weighs k.read k.readUnweighed (fun v => (k.wire v).length) k.Roomy := by
  induction k with
  | array element length ih =>
    intro h
    refine ⟨fun {c c' v} => ?_, fun {c c' v} => left_eq_of_readUnweighed _⟩
    rw [read, readUnweighed, Reader.map_eq_ok_iff, Reader.map_eq_ok_iff]
    constructor
    · rintro ⟨items, hread, rfl⟩
      obtain ⟨hread, hroom⟩ := ((ih h).repeated _).1 hread
      exact ⟨⟨items, hread, rfl⟩, hroom⟩
    · rintro ⟨⟨items, hread, rfl⟩, hroom⟩
      exact ⟨items, ((ih h).repeated _).2 ⟨hread, hroom⟩, rfl⟩
  | vec element ih =>
    intro h
    refine ⟨fun {c c' v} => ?_, fun {c c' v} => left_eq_of_readUnweighed _⟩
    constructor
    · intro hread
      obtain ⟨b, c₁, w, items, hblock, hw, hweight, hitems, rfl⟩ := ok_of_read_vec hread
      obtain ⟨hitems, hroom⟩ := ((ih h.2).repeated _).1 hitems
      have hleft := (Cursor.Passed.block hblock).left_eq
      rw [b.length_toList] at hleft
      have hlength := (Cursor.Passed.repeated element.passed_of_readUnweighed _ hitems).1
      refine ⟨readUnweighed_vec_eq_ok_iff.2 ⟨b, c₁, items, hblock, hitems, rfl⟩, ?_, ?_⟩
      · -- a widthless element was weighed as one byte
        intro hspan
        rw [← element.width_eq_span hw] at hspan
        rw [hspan, Nat.max_eq_right (Nat.zero_le 1), Nat.mul_one] at hweight
        rw [hlength, ← hleft]
        exact hweight
      · rw [← hleft]
        exact hroom
    · rintro ⟨hread, hroom⟩
      obtain ⟨b, c₁, items, hblock, hitems, rfl⟩ := readUnweighed_vec_eq_ok_iff.1 hread
      obtain ⟨hcount, hroom⟩ := hroom
      obtain ⟨w, hw⟩ := h.1
      have hleft := (Cursor.Passed.block hblock).left_eq
      rw [b.length_toList] at hleft
      rw [← hleft] at hcount hroom
      have hweight := weight_le_of_repeated hitems hcount
      rw [← element.width_eq_span hw] at hweight
      exact read_vec_of_weight hw hblock hweight (((ih h.2).repeated _).2 ⟨hitems, hroom⟩)
  | _ =>
    intro _
    exact ⟨⟨fun h => ⟨h, trivial⟩, And.left⟩, left_eq_of_readUnweighed _⟩

/-- **A fitting value is read back from its wire form without weighing**,
whatever the elements of its vectors are. -/
theorem readsUnweighed_wire (k : Kind) :
    ∀ {v : Value}, k.Fits v → k.readUnweighed.Reads (k.wire v) v := by
  induction k with
  | array element length ih =>
    intro v h
    obtain ⟨items, rfl, hlen, hitems⟩ := fits_array_iff.1 h
    have hread := Reader.Reads.repeated fun item hitem => ih (hitems item hitem)
    rw [hlen] at hread
    exact hread.map Value.list
  | vec element ih =>
    intro v h
    obtain ⟨items, rfl, hcount, hitems⟩ := fits_vec_iff.1 h
    have hblock := Reader.Reads.block ⟨_, Bytes.length_ofNat countWidth items.length⟩
    have hread := Reader.Reads.repeated fun item hitem => ih (hitems item hitem)
    refine hblock.bind ?_
    rw [Bytes.toNat_ofNat (show items.length < 256 ^ countWidth from hcount)]
    exact hread.map Value.list
  | u8 | u64 | i64 | bool | pubkey | bytes =>
    intro v h
    exact reads_wire _ (by trivial) h

end Kind

/-! ## §5. All fields. -/

namespace Layout

theorem weighs {layout : Layout} (h : layout.VecElements HasWidth) :
    ∀ {c c' : Cursor} {values : List Value}, layout.read c = .ok (values, c') ↔
      layout.readUnweighed c = .ok (values, c') ∧ layout.Roomy c.rest.length values := by
  obtain ⟨fields⟩ := layout
  unfold VecElements at h
  unfold read readUnweighed
  dsimp only at h ⊢
  induction fields with
  | nil =>
    intro c c' values
    have hroomy : Roomy ⟨[]⟩ c.rest.length values := trivial
    exact (and_iff_left hroomy).symm
  | cons field fields ih =>
    intro c c' values
    rw [List.forall_mem_cons] at h
    rw [List.mapM_cons, List.mapM_cons]
    exact (field.kind.weighs h.1).cons (ih h.2) fun _ _ _ => Iff.rfl

theorem readsUnweighed_wire {layout : Layout} {values : List Value} (h : layout.Fits values) :
    layout.readUnweighed.Reads (layout.wire values) values := by
  obtain ⟨fields⟩ := layout
  unfold Fits at h
  unfold readUnweighed wire
  dsimp only at h ⊢
  induction h with
  | nil => exact Reader.Reads.pure []
  | @cons field value fields values hfield _ ih =>
    rw [List.mapM_cons]
    exact (field.kind.readsUnweighed_wire hfield).bind (ih.map (value :: ·))

theorem decodeUnweighed_eq_ok_iff {layout : Layout} {d : List UInt8} {values : List Value} :
    layout.decodeUnweighed d = .ok values ↔
      ∃ c, layout.readUnweighed (.start d) = .ok (values, c) := by
  unfold decodeUnweighed Reader.run
  rw [Except.map_eq_ok_iff]
  constructor
  · rintro ⟨⟨_, c⟩, h, rfl⟩
    exact ⟨c, h⟩
  · rintro ⟨c, h⟩
    exact ⟨_, h, rfl⟩

theorem decodeUnweighed_wire {layout : Layout} {values : List Value} (h : layout.Fits values)
    (rest : List UInt8) : layout.decodeUnweighed (layout.wire values ++ rest) = .ok values :=
  decodeUnweighed_eq_ok_iff.2 ⟨_, readsUnweighed_wire h 0 rest⟩

theorem decode_eq_ok_iff_unweighed {layout : Layout} (hlayout : layout.VecElements HasWidth)
    {d : List UInt8} {values : List Value} : layout.decode d = .ok values ↔
      layout.decodeUnweighed d = .ok values ∧ layout.Roomy d.length values := by
  rw [decode_eq_ok_iff, decodeUnweighed_eq_ok_iff]
  constructor
  · rintro ⟨c, h⟩
    obtain ⟨hread, hroom⟩ := (weighs hlayout).1 h
    exact ⟨⟨c, hread⟩, hroom⟩
  · rintro ⟨⟨c, hread⟩, hroom⟩
    exact ⟨c, (weighs hlayout).2 ⟨hread, hroom⟩⟩

/-- **Weighing a count refuses nothing but vectors of elements without
width.**  Values are decoded exactly when they are decoded without weighing
and every vector of widthless elements has no more of them than there are
bytes behind its count; where all elements take bytes, weighing makes no
difference.  What a layout accepts is always decoded again without weighing,
and with it exactly when there is that room. -/
theorem decode_iff_unweighed (layout : Layout) (hlayout : layout.VecElements HasWidth) :
    (∀ (d : List UInt8) (values : List Value), layout.decode d = .ok values ↔
      layout.decodeUnweighed d = .ok values ∧ layout.Roomy d.length values) ∧
    (layout.VecElements TakesBytes → ∀ (d : List UInt8) (values : List Value),
      layout.decode d = .ok values ↔ layout.decodeUnweighed d = .ok values) ∧
    (∀ (values : List Value) (out : List UInt8), (layout.encodeInto values out).stop = none →
      ∃ bytes, (layout.encodeInto values out).bytes = out ++ bytes ∧ ∀ rest,
        layout.decodeUnweighed (bytes ++ rest) = .ok values ∧
        (layout.decode (bytes ++ rest) = .ok values ↔
          layout.Roomy (bytes ++ rest).length values)) := by
  refine ⟨fun d values => decode_eq_ok_iff_unweighed hlayout, ?_, ?_⟩
  · intro htakes d values
    rw [decode_eq_ok_iff_unweighed hlayout]
    exact and_iff_left (roomy_of_takesBytes htakes d.length values)
  · intro values out hstop
    have hfits := (stop_encodeInto_iff layout values out).1 hstop
    refine ⟨layout.wire values, by rw [encodeInto_of_fits hfits]; rfl, fun rest => ?_⟩
    have hunweighed := decodeUnweighed_wire hfits rest
    refine ⟨hunweighed, ?_⟩
    rw [decode_eq_ok_iff_unweighed hlayout]
    exact and_iff_right hunweighed

/-- One widthless element with a byte behind it has room, and what is written
for two truth values is decoded again. -/
theorem decode_iff_unweighed_marks :
    Layout.VecElements HasWidth ⟨[⟨"marks", .vec (.bytes 0)⟩, ⟨"flags", .vec .bool⟩]⟩ ∧
    decode ⟨[⟨"marks", .vec (.bytes 0)⟩, ⟨"flags", .vec .bool⟩]⟩
        [1, 0, 0, 0, 2, 0, 0, 0, 7, 0]
      = .ok [.list [.bytes []], .list [.bool true, .bool false]] ∧
    Layout.VecElements TakesBytes ⟨[⟨"flags", .vec .bool⟩]⟩ ∧
    ∃ bytes, (encodeInto ⟨[⟨"flags", .vec .bool⟩]⟩ [.list [.bool true, .bool false]] [5]).bytes
        = [5] ++ bytes ∧
      decode ⟨[⟨"flags", .vec .bool⟩]⟩ bytes = .ok [.list [.bool true, .bool false]] := by
  have hmarks : Layout.VecElements HasWidth
      ⟨[⟨"marks", .vec (.bytes 0)⟩, ⟨"flags", .vec .bool⟩]⟩ := by
    intro field hfield
    simp only [List.mem_cons, List.not_mem_nil, or_false] at hfield
    rcases hfield with rfl | rfl
    · exact ⟨⟨0, rfl⟩, trivial⟩
    · exact ⟨⟨1, rfl⟩, trivial⟩
  have hflags : ∀ {P : Kind → Prop}, P .bool → Layout.VecElements P ⟨[⟨"flags", .vec .bool⟩]⟩ := by
    intro P hP field hfield
    rw [List.mem_singleton.1 hfield]
    exact ⟨hP, trivial⟩
  have hwidth : Layout.VecElements HasWidth ⟨[⟨"flags", .vec .bool⟩]⟩ := hflags ⟨1, rfl⟩
  have htakes : Layout.VecElements TakesBytes ⟨[⟨"flags", .vec .bool⟩]⟩ :=
    hflags ⟨1, rfl, by decide⟩
  have hroomy : Layout.Roomy ⟨[⟨"marks", .vec (.bytes 0)⟩, ⟨"flags", .vec .bool⟩]⟩ 10
      [.list [.bytes []], .list [.bool true, .bool false]] :=
    ⟨⟨fun _ => by decide, trivial, trivial⟩,
      ⟨fun hspan => absurd hspan (by decide), trivial, trivial, trivial⟩, trivial⟩
  obtain ⟨bytes, hbytes, hdecode⟩ := (decode_iff_unweighed _ hwidth).2.2
    [.list [.bool true, .bool false]] [5] rfl
  have hagain := ((decode_iff_unweighed _ hwidth).2.1 htakes (bytes ++ []) _).2 (hdecode []).1
  rw [List.append_nil] at hagain
  exact ⟨hmarks, ((decode_iff_unweighed _ hmarks).1 _ _).2 ⟨rfl, hroomy⟩, htakes, bytes, hbytes,
    hagain⟩

/-- A vector of one widthless element with no byte behind its count is
written and, without weighing, read again; weighing refuses it. -/
theorem decode_refuses_widthless :
    Layout.VecElements HasWidth ⟨[⟨"marks", .vec (.bytes 0)⟩]⟩ ∧
    encodeInto ⟨[⟨"marks", .vec (.bytes 0)⟩]⟩ [.list [.bytes []]] [] = .done [1, 0, 0, 0] ∧
    decodeUnweighed ⟨[⟨"marks", .vec (.bytes 0)⟩]⟩ [1, 0, 0, 0] = .ok [.list [.bytes []]] ∧
    decode ⟨[⟨"marks", .vec (.bytes 0)⟩]⟩ [1, 0, 0, 0] = .error (.malformedInput 5 4) ∧
    ¬ ∀ values, decode ⟨[⟨"marks", .vec (.bytes 0)⟩]⟩ [1, 0, 0, 0] = .ok values ↔
      decodeUnweighed ⟨[⟨"marks", .vec (.bytes 0)⟩]⟩ [1, 0, 0, 0] = .ok values := by
  have hunweighed : decodeUnweighed ⟨[⟨"marks", .vec (.bytes 0)⟩]⟩ [1, 0, 0, 0]
      = .ok [.list [.bytes []]] := rfl
  have hrefused : decode ⟨[⟨"marks", .vec (.bytes 0)⟩]⟩ [1, 0, 0, 0]
      = .error (.malformedInput 5 4) := rfl
  refine ⟨?_, rfl, hunweighed, hrefused, fun h => ?_⟩
  · intro field hfield
    rw [List.mem_singleton.1 hfield]
    exact ⟨⟨0, rfl⟩, trivial⟩
  · have hdecode := (h _).2 hunweighed
    rw [hrefused] at hdecode
    cases hdecode

end Layout

end MerkleAirdrop
