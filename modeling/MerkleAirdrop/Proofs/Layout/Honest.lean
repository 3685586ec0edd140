/-
  MerkleAirdrop.Proofs.Layout.Honest
  ──────────────────────────────────
  **A SHORT BUFFER IS REPORTED HONESTLY, AND MORE BYTES MAKE PROGRESS.**

  A read is *honest* (`Reader.Honest`) when more bytes behind its buffer
  never change what it gives, and when it fails only for want of bytes: it
  names a place behind the end of the buffer, and names the same place as
  long as the buffer does not reach it.  The primitive reads are honest and
  steps in a row keep honesty, so every kind is read honestly as long as the
  element widths of its vectors stay in range (`Kind.honest_read`):

      Layout.decode_progress   a decode succeeds or asks for a place behind
                               the buffer; a longer buffer gives the same
                               values, asks for the same place or for one
                               further on

  Buffers are below `2 ^ 63` bytes.  A place is reported in 64 bits, so below
  that bound a place that was cut off at the largest number still lies
  behind every buffer.
-/
import MerkleAirdrop.Proofs.Layout.Reader
import MerkleAirdrop.Proofs.Layout.Width
import Mathlib.Algebra.Group.Nat.Defs

namespace MerkleAirdrop

open Kind (HasWidth)

/-! ## §1. Longer buffers. -/

namespace Cursor

/-- The cursor at the same place of a buffer with more bytes at its end. -/
def extend (c : Cursor) (more : List UInt8) : Cursor := ⟨c.offset, c.rest ++ more⟩

theorem size_extend (c : Cursor) (more : List UInt8) :
    (c.extend more).size = c.size + more.length := by
  unfold extend size
  rw [List.length_append, Nat.add_assoc]

theorem size_start (d : List UInt8) : (start d).size = d.length := Nat.zero_add _

/-- The failure to find `n` bytes asks for a place behind the buffer. -/
theorem exists_needed (c : Cursor) {n : Nat} (hsize : c.size < 2 ^ 63)
    (h : c.rest.length < n) :
    ∃ needed, c.short n = .malformedInput needed c.size ∧ c.size < needed ∧
      needed ≤ c.offset + n ∧ ∀ more, (c.extend more).short n
        = .malformedInput needed (c.extend more).size := by
  refine ⟨min (c.offset + n) (sizeLimit - 1), rfl, ?_, Nat.min_le_left _ _, fun _ => rfl⟩
  unfold size at hsize ⊢
  have hlimit : sizeLimit - 1 = 2 ^ 64 - 1 := rfl
  omega

end Cursor

/-! ## §2. Honest reads. -/

namespace Reader

variable {α β : Type}

/-- More bytes do not change what is read, and failures ask for a place
behind the buffer until it is there. -/
structure Honest (read : Reader α) : Prop where
  /-- A read that succeeds stays in its buffer and in every longer one. -/
  ok_extend : ∀ {c c' : Cursor} {a : α}, read c = .ok (a, c') →
    c'.size = c.size ∧ ∀ more, read (c.extend more) = .ok (a, c'.extend more)
  /-- A read that fails asks for the same place in every longer buffer that
  does not reach it. -/
  error_extend : ∀ {c : Cursor} {e : Error}, c.size < 2 ^ 63 → read c = .error e →
    ∃ needed, e = .malformedInput needed c.size ∧ c.size < needed ∧
      ∀ more, (c.extend more).size < needed →
        read (c.extend more) = .error (.malformedInput needed (c.extend more).size)

namespace Honest

/-- A read that needs `n` bytes, no more and no fewer, is honest. -/
theorem of_need {read : Reader α} (n : Nat)
    (hshort : ∀ c : Cursor, c.rest.length < n → read c = .error (c.short n))
    (hok : ∀ c : Cursor, n ≤ c.rest.length → ∃ a c', read c = .ok (a, c') ∧ c'.size = c.size ∧
      ∀ more, read (c.extend more) = .ok (a, c'.extend more)) :
    Honest read := by
  constructor
  · intro c c' a h
    by_cases hn : c.rest.length < n
    · rw [hshort c hn] at h
      cases h
    · obtain ⟨a', c'', hread, hsize, hmore⟩ := hok c (by omega)
      rw [hread] at h
      cases h
      exact ⟨hsize, hmore⟩
  · intro c e hsize h
    by_cases hn : c.rest.length < n
    · obtain ⟨needed, hneeded, hlt, hle, hmore⟩ := c.exists_needed hsize hn
      rw [hshort c hn, hneeded] at h
      cases h
      refine ⟨needed, rfl, hlt, fun more hmoreLt => ?_⟩
      -- the place is at most `n` bytes ahead, so the longer buffer is short of them too
      have hstill : (c.extend more).rest.length < n := by
        have : (c.extend more).size = c.offset + (c.extend more).rest.length := rfl
        omega
      rw [hshort _ hstill, hmore]
    · obtain ⟨a', c'', hread, _⟩ := hok c (by omega)
      rw [hread] at h
      cases h

theorem byte : Honest Reader.byte := by
  refine of_need 1 (fun c => byte_short) ?_
  intro c h
  obtain ⟨offset, rest⟩ := c
  cases rest with
  | nil => simp at h
  | cons b rest =>
    refine ⟨b, ⟨offset + 1, rest⟩, rfl, ?_, fun more => rfl⟩
    show offset + 1 + rest.length = offset + (rest.length + 1)
    omega

theorem block (n : Nat) : Honest (Reader.block n) := by
  refine of_need n (fun c => block_short) ?_
  intro c h
  refine ⟨_, _, block_ok h, ?_, fun more => ?_⟩
  · unfold Cursor.size
    dsimp only
    rw [List.length_drop]
    omega
  · have hmore : n ≤ (c.extend more).rest.length := by
      unfold Cursor.extend
      rw [List.length_append]
      omega
    rw [block_ok hmore]
    unfold Cursor.extend
    simp only [List.take_append_of_le_length h, List.drop_append_of_le_length h]

theorem ensure (n : Nat) : Honest (Reader.ensure n) := by
  refine of_need n (fun c => ensure_short) ?_
  intro c h
  refine ⟨(), c, ensure_ok h, rfl, fun more => ensure_ok ?_⟩
  unfold Cursor.extend
  rw [List.length_append]
  omega

protected theorem pure (a : α) : Honest (pure a : Reader α) := by
  constructor
  · intro c c' a' h
    cases h
    exact ⟨rfl, fun more => rfl⟩
  · intro c e _ h
    cases h

/-- Steps in a row keep honesty. -/
protected theorem bind {read : Reader α} {f : α → Reader β} (hread : Honest read)
    (hf : ∀ a, Honest (f a)) : Honest (read >>= f) := by
  constructor
  · intro c c'' b h
    obtain ⟨a, c', hfirst, hsecond⟩ := ok_of_bind h
    obtain ⟨hsize, hmore⟩ := hread.ok_extend hfirst
    obtain ⟨hsize', hmore'⟩ := (hf a).ok_extend hsecond
    refine ⟨hsize'.trans hsize, fun more => ?_⟩
    rw [bind_ok (hmore more), hmore' more]
  · intro c e hc h
    rcases error_of_bind h with hfirst | ⟨a, c', hfirst, hsecond⟩
    · obtain ⟨needed, he, hlt, hmore⟩ := hread.error_extend hc hfirst
      exact ⟨needed, he, hlt, fun more hmoreLt => bind_error (hmore more hmoreLt)⟩
    · obtain ⟨hsize, hext⟩ := hread.ok_extend hfirst
      obtain ⟨needed, he, hlt, hmore⟩ := (hf a).error_extend (hsize ▸ hc) hsecond
      refine ⟨needed, hsize ▸ he, hsize ▸ hlt, fun more hmoreLt => ?_⟩
      -- the second step starts in a buffer of the same size
      have hsizes : (c'.extend more).size = (c.extend more).size := by
        rw [Cursor.size_extend, Cursor.size_extend, hsize]
      rw [bind_ok (hext more), hmore more (hsizes ▸ hmoreLt), hsizes]

theorem map {read : Reader α} (hread : Honest read) (f : α → β) :
    Honest (do return f (← read)) :=
  hread.bind fun a => Honest.pure (f a)

theorem repeated {read : Reader α} (hread : Honest read) (n : Nat) :
    Honest (read.repeated n) := by
  induction n with
  | zero => exact Honest.pure []
  | succ n ih => exact hread.bind fun a => ih.map (a :: ·)

end Honest

end Reader

/-! ## §3. Values and fields. -/

/-- **Every kind is read honestly** if the widths of its vectors' elements
are in range. -/
theorem Kind.honest_read (k : Kind) : k.VecElements HasWidth → k.read.Honest := by
  induction k with
  | u8 | bool =>
    intro _
    exact Reader.Honest.byte.map _
  | u64 | i64 | bytes | pubkey =>
    intro _
    exact (Reader.Honest.block _).map _
  | array element length ih =>
    intro h
    exact ((ih h).repeated _).map Value.list
  | vec element ih =>
    intro h
    obtain ⟨w, hw⟩ := h.1
    refine (Reader.Honest.block countWidth).bind fun b => ?_
    show Reader.Honest (Reader.lift (element.width.mapError Error.overflow) >>= _)
    rw [hw]
    refine (Reader.Honest.pure w).bind fun w => ?_
    refine (Reader.Honest.ensure _).bind fun _ => ?_
    exact ((ih h.2).repeated _).map Value.list

namespace Layout

theorem honest_read (layout : Layout) :
    layout.VecElements HasWidth → layout.read.Honest := by
  obtain ⟨fields⟩ := layout
  unfold VecElements read
  dsimp only
  induction fields with
  | nil =>
    intro _
    exact Reader.Honest.pure []
  | cons field fields ih =>
    intro h
    rw [List.forall_mem_cons] at h
    rw [List.mapM_cons]
    exact (field.kind.honest_read h.1).bind fun value => (ih h.2).map (value :: ·)

theorem decode_eq_ok_iff {layout : Layout} {d : List UInt8} {values : List Value} :
    layout.decode d = .ok values ↔ ∃ c, layout.read (.start d) = .ok (values, c) := by
  show (layout.read (.start d)).map _ = _ ↔ _
  cases layout.read (.start d) with
  | error e => simp [Except.map]
  | ok p => simp [Except.map, Prod.ext_iff]

theorem decode_eq_error_iff {layout : Layout} {d : List UInt8} {e : Error} :
    layout.decode d = .error e ↔ layout.read (.start d) = .error e := by
  show (layout.read (.start d)).map _ = _ ↔ _
  cases layout.read (.start d) with
  | error e' => simp [Except.map]
  | ok p => simp [Except.map]

/-! ## §4. Decoding buffers. -/

/-- A decode succeeds or asks for a place behind the buffer. -/
theorem decode_outcome {layout : Layout} (hlayout : layout.VecElements HasWidth)
    {d : List UInt8} (hd : d.length < 2 ^ 63) :
    (∃ values, layout.decode d = .ok values) ∨
      ∃ needed, layout.decode d = .error (.malformedInput needed d.length) ∧
        d.length < needed := by
  rw [← Cursor.size_start d] at hd ⊢
  cases h : layout.decode d with
  | ok values => exact .inl ⟨values, rfl⟩
  | error e =>
    rw [decode_eq_error_iff] at h
    obtain ⟨needed, he, hlt, _⟩ := (layout.honest_read hlayout).error_extend hd h
    exact .inr ⟨needed, by rw [he], hlt⟩

theorem decode_append {layout : Layout} (hlayout : layout.VecElements HasWidth)
    {d : List UInt8} {values : List Value} (h : layout.decode d = .ok values)
    (more : List UInt8) : layout.decode (d ++ more) = .ok values := by
  obtain ⟨c, hc⟩ := decode_eq_ok_iff.1 h
  obtain ⟨_, hmore⟩ := (layout.honest_read hlayout).ok_extend hc
  exact decode_eq_ok_iff.2 ⟨c.extend more, hmore more⟩

/-- A place that is asked for is asked for until the buffer reaches it. -/
theorem decode_append_short {layout : Layout} (hlayout : layout.VecElements HasWidth)
    {d : List UInt8} (hd : d.length < 2 ^ 63) {needed available : Nat}
    (h : layout.decode d = .error (.malformedInput needed available)) {more : List UInt8}
    (hmore : (d ++ more).length < needed) :
    layout.decode (d ++ more) = .error (.malformedInput needed (d ++ more).length) := by
  rw [← Cursor.size_start d] at hd
  rw [← Cursor.size_start (d ++ more)] at hmore ⊢
  rw [decode_eq_error_iff] at h ⊢
  obtain ⟨needed', he, _, hext⟩ := (layout.honest_read hlayout).error_extend hd h
  injection he with hneeded
  rw [hneeded] at hmore ⊢
  exact hext more hmore

/-- **Failures are honest, and more bytes make progress.**  Below `2 ^ 63`
bytes a decode gives values or asks for a place behind its buffer.  Values
stay as they are when bytes are added.  A place that was asked for is asked
for again as long as the buffer does not reach it; once it does, the decode
succeeds or asks for a place further on.  So a strict prefix of a buffer that
decodes gives the same values or asks for a place inside that buffer. -/
theorem decode_progress (layout : Layout) (hlayout : layout.VecElements HasWidth)
    (d : List UInt8) (hd : d.length < 2 ^ 63) :
    ((∃ values, layout.decode d = .ok values) ∨
      ∃ needed, layout.decode d = .error (.malformedInput needed d.length) ∧
        d.length < needed) ∧
    (∀ values, layout.decode d = .ok values → ∀ s, layout.decode (d ++ s) = .ok values) ∧
    (∀ needed available, layout.decode d = .error (.malformedInput needed available) →
      ∀ s, (d ++ s).length < 2 ^ 63 →
        ((d ++ s).length < needed →
          layout.decode (d ++ s) = .error (.malformedInput needed (d ++ s).length)) ∧
        (needed ≤ (d ++ s).length →
          (∃ values, layout.decode (d ++ s) = .ok values) ∨
          ∃ needed', needed < needed' ∧
            layout.decode (d ++ s) = .error (.malformedInput needed' (d ++ s).length))) ∧
    (∀ values, layout.decode d = .ok values → ∀ m, m < d.length →
      layout.decode (d.take m) = .ok values ∨
      ∃ needed, layout.decode (d.take m) = .error (.malformedInput needed m) ∧
        m < needed ∧ needed ≤ d.length) := by
  refine ⟨decode_outcome hlayout hd, fun values h s => decode_append hlayout h s, ?_, ?_⟩
  · intro needed available h s hs
    refine ⟨decode_append_short hlayout hd h, fun hreach => ?_⟩
    rcases decode_outcome hlayout hs with hok | ⟨needed', hshort, hlt⟩
    · exact .inl hok
    · exact .inr ⟨needed', by omega, hshort⟩
  · intro values h m hm
    have hlength : (d.take m).length = m := List.length_take_of_le (by omega)
    have hsplit : d.take m ++ d.drop m = d := List.take_append_drop m d
    rcases decode_outcome hlayout (d := d.take m) (by omega) with ⟨values', hok⟩ | ⟨needed, hshort, hlt⟩
    · have hwhole := decode_append hlayout hok (d.drop m)
      rw [hsplit, h] at hwhole
      injection hwhole with hvalues
      exact .inl (hvalues ▸ hok)
    · rw [hlength] at hshort hlt
      refine .inr ⟨needed, hshort, hlt, ?_⟩
      rcases Nat.lt_or_ge d.length needed with hbehind | hinside
      · -- were the place behind `d` too, `d` would fail as its prefix does
        have hstill : (d.take m ++ d.drop m).length < needed := by
          rw [hsplit]
          exact hbehind
        have hwhole := decode_append_short hlayout (by omega) hshort hstill
        rw [hsplit, h] at hwhole
        cases hwhole
      · exact hinside

/-- A vector of two truth values that lacks its last byte, and the whole of it. -/
theorem decode_progress_flags :
    Layout.VecElements HasWidth ⟨[⟨"flags", .vec .bool⟩]⟩ ∧
    ([2, 0, 0, 0, 1, 7] : List UInt8).length < 2 ^ 63 ∧
    (decode ⟨[⟨"flags", .vec .bool⟩]⟩ ([2, 0, 0, 0, 1, 7].take 5)
        = .ok [.list [.bool true, .bool true]] ∨
      ∃ needed, decode ⟨[⟨"flags", .vec .bool⟩]⟩ ([2, 0, 0, 0, 1, 7].take 5)
        = .error (.malformedInput needed 5) ∧ 5 < needed ∧ needed ≤ 6) := by
  have hlayout : Layout.VecElements HasWidth ⟨[⟨"flags", .vec .bool⟩]⟩ := by
    intro field hfield
    rw [List.mem_singleton.1 hfield]
    exact ⟨⟨1, rfl⟩, trivial⟩
  have hprogress := decode_progress _ hlayout [2, 0, 0, 0, 1, 7] (by decide)
  exact ⟨hlayout, by decide, hprogress.2.2.2 [.list [.bool true, .bool true]] rfl 5 (by decide)⟩

end Layout

end MerkleAirdrop
