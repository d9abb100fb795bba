import HttpsServ.Networking

/-!
# Whose address is printed

The library leaves the raw address at the start of the block; the family is
stored over its first two bytes, and the address is read at its place in the
socket structure. So an IPv4 peer is printed with bytes of an older peer, and an
IPv6 peer with the second half of its address.
-/

namespace HttpsServ.PeerAddress

open ByteString Numeral Networking

def familyOf : Address → Bytes
  | .ipv4 _ _ => afInet
  | .ipv6 _ _ => afInet6

theorem familyOf_length (peer : Address) : (familyOf peer).length = 2 := by
  cases peer <;> rfl

theorem raw_length_le (peer : Address) : 4 ≤ peer.raw.length ∧ peer.raw.length ≤ 16 := by
  cases peer with
  | ipv4 raw size => simp [Address.raw, size]
  | ipv6 raw size => simp [Address.raw, size]

theorem accepted_family (sa : SockaddrStorage) (peer : Address) :
    (if (netAccept sa peer).2 = 4 then afInet else afInet6) = familyOf peer := by
  cases peer with
  | ipv4 raw size => simp [netAccept, Address.raw, size, familyOf]
  | ipv6 raw size => simp [netAccept, Address.raw, size, familyOf]

/-- The block after a peer was accepted: the family, the rest of the raw address, and
what was behind it before. -/
theorem acceptPeer_cells (inetNtop : Address → Bytes) (sa : SockaddrStorage) (peer : Address) :
    (acceptPeer inetNtop sa peer).2.cells =
      familyOf peer ++ (peer.raw.drop 2 ++ sa.cells.drop peer.raw.length) := by
  obtain ⟨hfour, hsixteen⟩ := raw_length_le peer
  have hsize := sa.size
  simp only [acceptPeer, accepted_family]
  simp only [netAccept, SockaddrStorage.store]
  rw [overwrite_of_le (by rw [familyOf_length, length_overwrite]; omega),
    overwrite_of_le (by omega), familyOf_length]
  simp only [List.take_zero, List.nil_append, Nat.zero_add]
  rw [List.drop_append_of_le_length (by omega)]

/-- The block behind the family. -/
theorem acceptPeer_drop (inetNtop : Address → Bytes) (sa : SockaddrStorage) (peer : Address)
    (n : Nat) :
    (acceptPeer inetNtop sa peer).2.cells.drop (n + 2) =
      (peer.raw.drop 2 ++ sa.cells.drop peer.raw.length).drop n := by
  rw [acceptPeer_cells, Nat.add_comm, ← List.drop_drop, List.drop_left' (familyOf_length peer)]

/-- The bytes that are printed as the address of a peer. -/
def readBytes (sa : SockaddrStorage) : Address → Bytes
  | .ipv4 _ _ => (sa.cells.drop 4).take 4
  | .ipv6 raw _ => raw.drop 8 ++ (sa.cells.drop 16).take 8

theorem acceptPeer_text (inetNtop : Address → Bytes) (sa : SockaddrStorage) (peer : Address) :
    ∃ shown : Address, (acceptPeer inetNtop sa peer).1 = inetNtop shown ∧
      familyOf shown = familyOf peer ∧ shown.raw = readBytes sa peer := by
  have hcells := acceptPeer_cells inetNtop sa peer
  have hdrop := acceptPeer_drop inetNtop sa peer
  have htext : (acceptPeer inetNtop sa peer).1 =
      getSockaddrIp inetNtop (acceptPeer inetNtop sa peer).2 := rfl
  generalize (acceptPeer inetNtop sa peer).2 = after at hcells hdrop htext
  rw [htext, getSockaddrIp]
  have hfamily : after.ssFamily = familyOf peer := by
    rw [SockaddrStorage.ssFamily, hcells, List.take_left' (familyOf_length peer)]
  cases peer with
  | ipv4 raw size =>
      have hinet : after.ssFamily = afInet := hfamily
      rw [if_pos hinet]
      refine ⟨_, rfl, rfl, ?_⟩
      simp only [Address.raw, getInAddr, if_pos hinet, readBytes] at hdrop ⊢
      rw [hdrop 2, size, List.drop_left' (by rw [List.length_drop, size])]
  | ipv6 raw size =>
      have hinet : after.ssFamily ≠ afInet := by
        rw [hfamily, familyOf]
        decide
      rw [if_neg hinet]
      refine ⟨_, rfl, rfl, ?_⟩
      simp only [Address.raw, getInAddr, if_neg hinet, readBytes] at hdrop ⊢
      have hlength : (raw.drop 8).length = 8 := by rw [List.length_drop, size]
      have hbehind : after.cells.drop 8 = raw.drop 8 ++ sa.cells.drop 16 := by
        rw [hdrop 6, size, List.drop_append_of_le_length (by rw [List.length_drop, size]; omega),
          List.drop_drop]
      rw [hbehind, List.take_append, hlength, List.take_of_length_le (by omega)]

variable {inetNtop : Address → Bytes}

def IsZero (peer : Address) : Prop := ∀ b ∈ peer.raw, b = 0

instance (peer : Address) : Decidable (IsZero peer) :=
  inferInstanceAs (Decidable (∀ b ∈ _, _))

theorem Address.eq_of_raw {x y : Address} (hfamily : familyOf x = familyOf y)
    (hraw : x.raw = y.raw) : x = y := by
  cases x with
  | ipv4 raw size =>
      cases y with
      | ipv4 raw' size' =>
          simp only [Address.raw] at hraw
          subst hraw
          rfl
      | ipv6 raw' size' => exact absurd hfamily (by simp only [familyOf]; decide)
  | ipv6 raw size =>
      cases y with
      | ipv4 raw' size' => exact absurd hfamily (by simp only [familyOf]; decide)
      | ipv6 raw' size' =>
          simp only [Address.raw] at hraw
          subst hraw
          rfl

/-- The text of a peer is its own exactly when its bytes are read. -/
theorem acceptPeer_own_iff (hinj : Function.Injective inetNtop) (sa : SockaddrStorage)
    (peer : Address) :
    (acceptPeer inetNtop sa peer).1 = inetNtop peer ↔ readBytes sa peer = peer.raw := by
  obtain ⟨shown, htext, hfamily, hraw⟩ := acceptPeer_text inetNtop sa peer
  rw [htext, hinj.eq_iff, ← hraw]
  constructor
  · intro h
    rw [h]
  · exact Address.eq_of_raw hfamily

/-- The block as the first peer finds it, apart from its family. -/
def Blank (sa : SockaddrStorage) : Prop := sa.cells.drop 4 = List.replicate 124 0

theorem blank_zero : Blank .zero := by
  rw [Blank, SockaddrStorage.zero, List.drop_replicate]

/-- On a blank block only the zero addresses are read as they are. -/
theorem Blank.own_iff {sa : SockaddrStorage} (h : Blank sa) (peer : Address) :
    readBytes sa peer = peer.raw ↔ IsZero peer := by
  have hsixteen : sa.cells.drop 16 = List.replicate 112 0 := by
    calc
      sa.cells.drop 16 = (sa.cells.drop 4).drop 12 := by rw [List.drop_drop]
      _ = _ := by rw [h, List.drop_replicate]
  cases peer with
  | ipv4 raw size =>
      simp only [readBytes, Address.raw, IsZero]
      rw [h, List.take_replicate, eq_comm, List.eq_replicate_iff, size]
      simp
  | ipv6 raw size =>
      simp only [readBytes, Address.raw, IsZero, hsixteen, List.take_replicate]
      constructor
      · -- the second half is zero, and the first half is the second
        intro heq
        have hhalf : raw.drop 8 = List.replicate 8 0 := by
          have hdrop := congrArg (List.drop 8) heq
          rw [List.drop_left' (by rw [List.length_drop, size])] at hdrop
          exact hdrop.symm
        rw [hhalf] at heq
        intro b hb
        rw [← heq] at hb
        rcases List.mem_append.mp hb with hb | hb
        · exact List.eq_of_mem_replicate hb
        · exact List.eq_of_mem_replicate hb
      · intro hzero
        have hraw : raw = List.replicate 16 0 := List.eq_replicate_iff.mpr ⟨size, hzero⟩
        rw [hraw]
        rfl

/-- A zero address leaves the block blank. -/
theorem Blank.after {sa : SockaddrStorage} (h : Blank sa) {peer : Address} (hzero : IsZero peer) :
    Blank (acceptPeer inetNtop sa peer).2 := by
  obtain ⟨hfour, hsixteen⟩ := raw_length_le peer
  have hraw : peer.raw = List.replicate peer.raw.length 0 :=
    List.eq_replicate_iff.mpr ⟨rfl, hzero⟩
  have hrest : sa.cells.drop peer.raw.length = List.replicate (128 - peer.raw.length) 0 := by
    calc
      sa.cells.drop peer.raw.length = (sa.cells.drop 4).drop (peer.raw.length - 4) := by
        rw [List.drop_drop, Nat.add_sub_of_le hfour]
      _ = List.replicate (128 - peer.raw.length) 0 := by
        rw [h, List.drop_replicate]
        congr 1
        omega
  calc
    (acceptPeer inetNtop sa peer).2.cells.drop 4 =
        (peer.raw.drop 2 ++ sa.cells.drop peer.raw.length).drop 2 :=
      acceptPeer_drop inetNtop sa peer 2
    _ = List.replicate (peer.raw.length - 4) 0 ++ List.replicate (128 - peer.raw.length) 0 := by
      rw [List.drop_append_of_le_length (by rw [List.length_drop]; omega), List.drop_drop, hrest]
      conv_lhs => rw [hraw, List.drop_replicate, List.length_replicate]
    _ = List.replicate 124 0 := by
      rw [← List.replicate_add]
      congr 1
      omega

/-- Every peer of a run is printed with its own address exactly when all of them have
the address zero. -/
theorem printedPeers_own_iff (hinj : Function.Injective inetNtop) (peers : List Address) :
    printedPeers inetNtop peers = peers.map inetNtop ↔ ∀ peer ∈ peers, IsZero peer := by
  have hrun : ∀ sa, Blank sa →
      (acceptPeers inetNtop sa peers = peers.map inetNtop ↔ ∀ peer ∈ peers, IsZero peer) := by
    induction peers with
    | nil => simp [acceptPeers]
    | cons peer peers ih =>
        intro sa hblank
        rw [acceptPeers, List.map_cons, List.forall_mem_cons, List.cons_eq_cons,
          acceptPeer_own_iff hinj, hblank.own_iff]
        apply and_congr_right
        intro hzero
        exact ih _ (hblank.after hzero)
  exact hrun _ blank_zero

/-- The numbers of the bytes between separators: dotted decimal for IPv4, and for IPv6
the bytes in hexadecimal. -/
def textForm : Address → Bytes
  | .ipv4 raw _ => [46].intercalate (raw.map fun b => numeral 10 b.toNat)
  | .ipv6 raw _ => [58].intercalate (raw.map fun b => numeral 16 b.toNat)

theorem numeral_plain {base n : Nat} (hbase : 1 < base) (hsmall : base ≤ 16) {b : UInt8}
    (hb : b = 46 ∨ b = 58) : b ∉ numeral base n := by
  have hdigit : ∀ d < 16, digitByte d ≠ 46 ∧ digitByte d ≠ 58 := by decide
  intro h
  obtain ⟨d, hd, rfl⟩ := mem_numeral hbase h
  rcases hb with hb | hb
  · exact (hdigit d (by omega)).1 hb
  · exact (hdigit d (by omega)).2 hb

/-- The bytes are read back from the text between the separators. -/
theorem splitOn_textForm {base : Nat} (hbase : 1 < base) (hsmall : base ≤ 16) {sep : UInt8}
    (hsep : sep = 46 ∨ sep = 58) {raw : Bytes} (hne : raw ≠ []) :
    ([sep].intercalate (raw.map fun b => numeral base b.toNat)).splitOn sep =
      raw.map fun b => numeral base b.toNat := by
  apply List.splitOn_intercalate
  · intro part hpart
    obtain ⟨b, -, rfl⟩ := List.mem_map.mp hpart
    exact numeral_plain hbase hsmall hsep
  · simpa using hne

/-- Two texts with one separator are the same only for the same bytes. -/
theorem numerals_injective {base : Nat} (hbase : 1 < base) (hsmall : base ≤ 16) {sep : UInt8}
    (hsep : sep = 46 ∨ sep = 58) {raw raw' : Bytes} (hne : raw ≠ []) (hne' : raw' ≠ [])
    (h : [sep].intercalate (raw.map fun b => numeral base b.toNat) =
      [sep].intercalate (raw'.map fun b => numeral base b.toNat)) :
    raw = raw' := by
  have hparts := congrArg (List.splitOn sep) h
  rw [splitOn_textForm hbase hsmall hsep hne, splitOn_textForm hbase hsmall hsep hne'] at hparts
  apply List.map_injective_iff.mpr _ hparts
  intro a b hab
  exact UInt8.toNat_inj.mp (numeral_inj hbase hsmall hab)

theorem notMem_intercalate {b sep : UInt8} (hne : b ≠ sep) {parts : List Bytes}
    (hparts : ∀ part ∈ parts, b ∉ part) : b ∉ [sep].intercalate parts := by
  induction parts with
  | nil => simp
  | cons part parts ih =>
      rw [List.forall_mem_cons] at hparts
      cases parts with
      | nil => simpa using hparts.1
      | cons next parts =>
          rw [List.intercalate_cons_cons]
          simp [hparts.1, hne, ih hparts.2]

/-- No dotted text has a colon, and every text of an IPv6 address has one. -/
theorem textForm_family {raw raw' : Bytes} (size : raw.length = 4) (size' : raw'.length = 16) :
    textForm (.ipv4 raw size) ≠ textForm (.ipv6 raw' size') := by
  intro h
  have hcolon : 58 ∉ textForm (.ipv4 raw size) := by
    apply notMem_intercalate (by decide)
    intro part hpart
    obtain ⟨b, -, rfl⟩ := List.mem_map.mp hpart
    exact numeral_plain (by decide) (by decide) (.inr rfl)
  have hne : raw' ≠ [] := by
    rintro rfl
    cases size'
  have hparts : (textForm (.ipv6 raw' size')).splitOn 58 = raw'.map fun b => numeral 16 b.toNat :=
    splitOn_textForm (by decide) (by decide) (.inr rfl) hne
  rw [← h, List.splitOn_eq_singleton hcolon] at hparts
  have hlength := congrArg List.length hparts
  rw [List.length_map, size'] at hlength
  cases hlength

theorem textForm_injective : Function.Injective textForm := by
  intro x y h
  have hne : ∀ raw : Bytes, raw.length ≠ 0 → raw ≠ [] := fun raw => mt (congrArg List.length)
  cases x with
  | ipv4 raw size =>
      cases y with
      | ipv4 raw' size' =>
          apply Address.eq_of_raw (by rfl)
          exact numerals_injective (by decide) (by decide) (.inl rfl) (hne raw (by omega))
            (hne raw' (by omega)) h
      | ipv6 raw' size' => exact absurd h (textForm_family size size')
  | ipv6 raw size =>
      cases y with
      | ipv4 raw' size' => exact absurd h.symm (textForm_family size' size)
      | ipv6 raw' size' =>
          apply Address.eq_of_raw (by rfl)
          exact numerals_injective (by decide) (by decide) (.inr rfl) (hne raw (by omega))
            (hne raw' (by omega)) h

theorem printedPeers_own_unspecified :
    let peers := [Address.ipv4 [0, 0, 0, 0] rfl, .ipv4 [0, 0, 0, 0] rfl]
    printedPeers textForm peers = peers.map textForm :=
  (printedPeers_own_iff textForm_injective _).mpr (by simp [IsZero, Address.raw])

/-- The first peer, `127.0.0.1`, is printed as the address zero. -/
theorem loopback_not_own : ¬ ∀ peers, printedPeers textForm peers = peers.map textForm := by
  intro h
  have hrun := h [.ipv4 [127, 0, 0, 1] rfl]
  simp only [printedPeers, acceptPeers, List.map_cons, List.map_nil, List.cons_eq_cons,
    and_true] at hrun
  rw [acceptPeer_own_iff textForm_injective, blank_zero.own_iff] at hrun
  exact absurd hrun (by decide)

end HttpsServ.PeerAddress
