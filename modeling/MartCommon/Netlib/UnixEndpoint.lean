import MartCommon.Library.CString
import MartCommon.Mba.CharBuffer
import MartCommon.Netlib.ByteOrder

namespace MartCommon.Netlib

open Library Library.BoundedWrites

namespace PortLayer

/-- The size of `sun_path` on a platform. A `::sockaddr_un` with its two bytes for the family fits into
the storage, as the `static_assert` says. -/
structure Platform where
  order : ByteOrder
  sizeofSunPath : Nat
  positive : 0 < sizeofSunPath
  fits : 2 + sizeofSunPath ≤ 110

/-- `SockaddrUn` with its storage of 110 bytes -/
structure SockaddrUn where
  rawBytes : Text
  deriving DecidableEq, Repr

/-- `AF_UNIX` -/
def afUnix : BitVec 16 := 1

namespace SockaddrUn

variable (platform : Platform)

/-- `make_sockaddr_un` gives the bytes of `sun_path`. There is no result where it reads or writes outside
of its memory. -/
def makeSockaddrUn (u8path : Text) (length : Nat) : Option Text :=
  let native := List.replicate platform.sizeofSunPath 0
  let maxUnixPathLength := platform.sizeofSunPath
  let actualLength := if length < maxUnixPathLength - 1 then length else maxUnixPathLength - 1
  if u8path.length < actualLength then none
  else
    (storeAll (u8path.take actualLength) (native, 0)).bind fun copied =>
      store copied.1 actualLength 0

/-- `SockaddrUn( const ::sockaddr_un& native )` -/
def ofNative (sunPath : Text) : Option SockaddrUn :=
  (storeAll (memory platform.order afUnix ++ sunPath) (List.replicate 110 0, 0)).map fun stored =>
    ⟨stored.1⟩

/-- `SockaddrUn( const char* u8path, std::size_t length )` -/
def ofPath (u8path : Text) (length : Nat) : Option SockaddrUn :=
  (makeSockaddrUn platform u8path length).bind (ofNative platform)

/-- The memory that `path()` points to. -/
def path (addr : SockaddrUn) : Text := addr.rawBytes.drop 2

end SockaddrUn

end PortLayer

namespace Un

open PortLayer

/-- `un::endpoint` with the characters of its string `_addr` -/
structure Endpoint where
  addr : Text
  deriving DecidableEq, Repr

/-- `endpoint( mba::im_zstr path )` -/
def Endpoint.ofZstr (path : Text) : Endpoint := ⟨path⟩

/-- `endpoint( std::string_view path )` copies the path into an `im_zstr`, which takes its size as an `int`.
There is no result where that allocation or the copy leaves its memory. -/
def Endpoint.ofPath (checked : Bool) (path : Text) : Option Endpoint :=
  (Mba.copyFromBytes checked (none : Option Unit) path).map fun made =>
    .ofZstr (made.buffer.text.take made.size)

/-- `endpoint( const abi_endpoint_type& path )` reads up to the first zero. -/
def Endpoint.ofSockAddr (checked : Bool) (addr : SockaddrUn) : Option Endpoint :=
  (CString.strlen addr.path).bind fun length => Endpoint.ofPath checked (addr.path.take length)

/-- `toSockAddr()` -/
def Endpoint.toSockAddr (platform : Platform) (endpoint : Endpoint) : Option SockaddrUn :=
  SockaddrUn.ofPath platform endpoint.addr endpoint.addr.length

/-- The bytes of a path that a `::sockaddr_un` has room for. -/
def Endpoint.kept (platform : Platform) (path : Text) : Text := path.take (platform.sizeofSunPath - 1)

/-- An address there and an endpoint back. -/
def Endpoint.roundtrip (checked : Bool) (platform : Platform) (endpoint : Endpoint) : Option Endpoint :=
  (endpoint.toSockAddr platform).bind (Endpoint.ofSockAddr checked)

variable {checked : Bool} {platform : Platform} {path : Text}

/-- The endpoint of a path is made exactly where the size of the path is an `int`. -/
theorem ofPath_eq_some_iff {endpoint : Endpoint} :
    Endpoint.ofPath checked path = some endpoint ↔ path.length < 2 ^ 31 ∧ endpoint = .ofZstr path := by
  rw [Endpoint.ofPath]
  by_cases small : path.length < 2 ^ 31
  · have front : (path ++ [0]).take path.length = path := List.take_left' rfl
    rw [Mba.copyFromBytes_eq small, Option.map_some, Mba.CharBuffer.text_holding, front, Option.some.injEq,
      and_iff_right small]
    exact eq_comm
  · rw [Mba.copyFromBytes_large small, Option.map_none]
    exact iff_of_false (by simp) fun both => small both.1

/-- The bytes of the address of a path: the family, what is kept of the path, and zeros. -/
def sockAddrBytes (platform : Platform) (path : Text) : Text :=
  memory platform.order afUnix ++ CString.padded 108 (Endpoint.kept platform path)

theorem length_kept (platform : Platform) (path : Text) :
    (Endpoint.kept platform path).length = min (platform.sizeofSunPath - 1) path.length :=
  List.length_take

theorem length_family (order : ByteOrder) : (memory order afUnix).length = 2 := by
  cases order <;> rfl

/-- A path is cut, and zeros fill the rest of `sun_path`. -/
theorem makeSockaddrUn_eq (platform : Platform) (path : Text) :
    SockaddrUn.makeSockaddrUn platform path path.length =
      some (CString.padded platform.sizeofSunPath (Endpoint.kept platform path)) := by
  have positive := platform.positive
  have kept := length_kept platform path
  have actual : (if path.length < platform.sizeofSunPath - 1 then path.length
      else platform.sizeofSunPath - 1) = (Endpoint.kept platform path).length := by
    rw [kept]
    split <;> omega
  have cut : path.take (Endpoint.kept platform path).length = Endpoint.kept platform path := by
    rw [kept, Endpoint.kept, ← List.take_take, List.take_length]
  have fits : (Endpoint.kept platform path).length ≤
      (List.replicate platform.sizeofSunPath (0 : UInt8)).length := by
    rw [List.length_replicate]
    omega
  obtain ⟨zeros, more⟩ : ∃ zeros,
      platform.sizeofSunPath - (Endpoint.kept platform path).length = zeros + 1 :=
    ⟨platform.sizeofSunPath - (Endpoint.kept platform path).length - 1, by omega⟩
  simp only [SockaddrUn.makeSockaddrUn, actual]
  rw [if_neg (by omega), cut, storeAll_front fits, Option.bind_some, List.drop_replicate,
    CString.padded, more, List.replicate_succ]
  exact store_fits _ _ _ _

theorem toSockAddr_eq (platform : Platform) (path : Text) :
    (Endpoint.ofZstr path).toSockAddr platform = some ⟨sockAddrBytes platform path⟩ := by
  have fits := platform.fits
  have kept := length_kept platform path
  have positive := platform.positive
  have length : (memory platform.order afUnix ++
      CString.padded platform.sizeofSunPath (Endpoint.kept platform path)).length =
        2 + platform.sizeofSunPath := by
    rw [List.length_append, length_family, CString.padded, List.length_append, List.length_replicate]
    omega
  have zeros : platform.sizeofSunPath - (Endpoint.kept platform path).length +
      (110 - (2 + platform.sizeofSunPath)) = 108 - (Endpoint.kept platform path).length := by omega
  rw [Endpoint.toSockAddr, SockaddrUn.ofPath, Endpoint.ofZstr, makeSockaddrUn_eq, Option.bind_some,
    SockaddrUn.ofNative, storeAll_front (by rw [length, List.length_replicate]; exact fits),
    Option.map_some, length, List.drop_replicate, List.append_assoc, CString.padded, List.append_assoc,
    List.replicate_append_replicate, zeros]
  rfl

/-- What is read back from an address is short enough for a string. -/
theorem ofSockAddr_eq (checked : Bool) (platform : Platform) (path : Text) :
    Endpoint.ofSockAddr checked ⟨sockAddrBytes platform path⟩ =
      some (.ofZstr (CString.characters (Endpoint.kept platform path))) := by
  have fits := platform.fits
  have kept := length_kept platform path
  have positive := platform.positive
  obtain ⟨zeros, more⟩ : ∃ zeros, 108 - (Endpoint.kept platform path).length = zeros + 1 :=
    ⟨108 - (Endpoint.kept platform path).length - 1, by omega⟩
  have memory : SockaddrUn.path ⟨sockAddrBytes platform path⟩ =
      Endpoint.kept platform path ++ 0 :: List.replicate zeros 0 := by
    rw [SockaddrUn.path, sockAddrBytes, CString.padded, more, List.replicate_succ]
    exact List.drop_left' (length_family platform.order)
  have terminated : 0 ∈ Endpoint.kept platform path ++ 0 :: List.replicate zeros 0 := by simp
  rw [Endpoint.ofSockAddr, memory, CString.strlen, if_pos terminated, Option.bind_some,
    CString.take_strlen (if_pos terminated), CString.characters_append_zero, ofPath_eq_some_iff]
  have read : (CString.characters (Endpoint.kept platform path)).length ≤
      (Endpoint.kept platform path).length :=
    (List.takeWhile_prefix _).length_le
  exact ⟨by omega, rfl⟩

theorem zero_notMem_kept (platform : Platform) (zeroFree : 0 ∉ path) : 0 ∉ Endpoint.kept platform path :=
  fun member => zeroFree (List.mem_of_mem_take member)

/-- A path without zeros comes back as far as it is kept. -/
theorem roundtrip_eq (checked : Bool) (platform : Platform) (zeroFree : 0 ∉ path) :
    (Endpoint.ofZstr path).roundtrip checked platform = some (.ofZstr (Endpoint.kept platform path)) := by
  rw [Endpoint.roundtrip, toSockAddr_eq, Option.bind_some, ofSockAddr_eq,
    CString.characters_eq (zero_notMem_kept platform zeroFree)]

theorem kept_eq_iff (platform : Platform) (path : Text) :
    Endpoint.kept platform path = path ↔ path.length ≤ platform.sizeofSunPath - 1 :=
  List.take_eq_self_iff path

/-- Paths have one address exactly where they are kept alike, apart from zeros at the end. -/
theorem toSockAddr_eq_iff (platform : Platform) (left right : Text) :
    (Endpoint.ofZstr left).toSockAddr platform = (Endpoint.ofZstr right).toSockAddr platform ↔
      CString.trimmed (Endpoint.kept platform left) = CString.trimmed (Endpoint.kept platform right) := by
  have fits := platform.fits
  have leftFits : (Endpoint.kept platform left).length ≤ 108 := by
    rw [length_kept]
    omega
  have rightFits : (Endpoint.kept platform right).length ≤ 108 := by
    rw [length_kept]
    omega
  rw [toSockAddr_eq, toSockAddr_eq, Option.some.injEq, SockaddrUn.mk.injEq, sockAddrBytes, sockAddrBytes,
    List.append_cancel_left_eq, CString.padded_eq_iff leftFits rightFits]

/-- The endpoint of a path is made where the size of the path is an `int`. Each path without zeros that is
shorter than `sun_path` comes back from its address, and only those. A longer one is cut without a report, so
that two endpoints have one address exactly where their paths agree as far as they are kept. -/
theorem endpoint_conversion (checked : Bool) (platform : Platform) :
    (∀ path endpoint, Endpoint.ofPath checked path = some endpoint ↔
      path.length < 2 ^ 31 ∧ endpoint = .ofZstr path) ∧
    (∀ path, 0 ∉ path →
      (Endpoint.ofZstr path).roundtrip checked platform = some (.ofZstr (Endpoint.kept platform path)) ∧
        ((Endpoint.ofZstr path).roundtrip checked platform = some (.ofZstr path) ↔
          path.length ≤ platform.sizeofSunPath - 1)) ∧
    (∀ left right, 0 ∉ left → 0 ∉ right →
      ((Endpoint.ofZstr left).toSockAddr platform = (Endpoint.ofZstr right).toSockAddr platform ↔
        Endpoint.kept platform left = Endpoint.kept platform right)) ∧
    ∀ left right,
      (Endpoint.ofZstr left).toSockAddr platform = (Endpoint.ofZstr right).toSockAddr platform ↔
        CString.trimmed (Endpoint.kept platform left) =
          CString.trimmed (Endpoint.kept platform right) := by
  refine ⟨fun path endpoint => ofPath_eq_some_iff,
    fun path zeroFree => ⟨roundtrip_eq checked platform zeroFree, ?_⟩,
    fun left right leftFree rightFree => ?_, toSockAddr_eq_iff platform⟩
  · rw [roundtrip_eq checked platform zeroFree, Option.some.injEq, Endpoint.ofZstr, Endpoint.ofZstr,
      Endpoint.mk.injEq, kept_eq_iff]
  · rw [toSockAddr_eq_iff, CString.trimmed_eq (zero_notMem_kept platform leftFree),
      CString.trimmed_eq (zero_notMem_kept platform rightFree)]

/-- Linux on a little endian machine -/
def linux : Platform := ⟨.littleEndian, 108, by decide, by decide⟩

/-- A path of 108 characters loses the last one without a report. -/
theorem endpoint_cut :
    ¬ ((∀ path endpoint, 0 ∉ path → Endpoint.ofPath true path = some endpoint →
        endpoint.roundtrip true linux = some endpoint ∨ endpoint.roundtrip true linux = none) ∧
      ∀ left right first second, left ≠ right → Endpoint.ofPath true left = some first →
        Endpoint.ofPath true right = some second → first.toSockAddr linux ≠ second.toSockAddr linux) := by
  intro faithful
  have zeroFree : 0 ∉ List.replicate 108 (97 : UInt8) := by decide
  have made : Endpoint.ofPath true (List.replicate 108 97) = some (.ofZstr (List.replicate 108 97)) :=
    ofPath_eq_some_iff.mpr ⟨by decide, rfl⟩
  have back := faithful.1 _ _ zeroFree made
  rw [roundtrip_eq true linux zeroFree] at back
  simp only [Option.some.injEq, reduceCtorEq, or_false] at back
  exact absurd (congrArg (fun endpoint => endpoint.addr.length) back) (by decide)

end Un

end MartCommon.Netlib
