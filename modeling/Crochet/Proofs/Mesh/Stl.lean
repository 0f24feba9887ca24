import Crochet.Mesh.Stl
import Mathlib

/-!
# STL bytes are read back

Nothing in the bytes says where a piece ends, but every piece has a size of its own: a single has
four bytes, a record fifty, the header eighty-four.  So cutting at these sizes finds what was
written, and the number in the header says how often to cut.

* `valueOf_bytesOf`: a number is read back from its bytes if it fits them.
* `pieces_flatMap`: pieces of one size, written one behind the other, are cut apart again.
* `read?_bytes`: reading gives the bits of every triangle, in order.
* `bytes_decode`: what these bits stand for, and how many bytes there are.
-/

namespace Crochet.Mesh.Stl

/-! ## Numbers -/

@[simp] theorem length_bytesOf (count n : Nat) : (bytesOf count n).length = count := by
  induction count generalizing n with
  | zero => rfl
  | succ count ih => rw [bytesOf, List.length_cons, ih]

/-- A number that fits its bytes is read back from them. -/
theorem valueOf_bytesOf {count n : Nat} (h : n < 256 ^ count) : valueOf (bytesOf count n) = n := by
  induction count generalizing n with
  | zero => exact (Nat.lt_one_iff.1 h).symm
  | succ count ih =>
    have hrest : n / 256 < 256 ^ count := Nat.div_lt_of_lt_mul (by rwa [Nat.pow_succ'] at h)
    rw [bytesOf, valueOf, ih hrest, UInt8.toNat_ofNat']
    exact Nat.mod_add_div n 256

/-- The bits of a single are read back from its four bytes. -/
theorem ofNat_valueOf_bytesOf (bits : UInt32) :
    UInt32.ofNat (valueOf (bytesOf 4 bits.toNat)) = bits := by
  rw [valueOf_bytesOf bits.toNat_lt, UInt32.ofNat_toNat]

/-! ## Pieces -/

/-- Pieces of one size, written one behind the other, are cut apart again. -/
theorem pieces_flatMap {α β : Type} {size : Nat} {write : α → List β} {items : List α}
    (h : ∀ item ∈ items, (write item).length = size) (rest : List β) :
    pieces size items.length (items.flatMap write ++ rest) = items.map write := by
  induction items with
  | nil => rfl
  | cons item items ih =>
    obtain ⟨hitem, hitems⟩ := List.forall_mem_cons.1 h
    rw [List.flatMap_cons, List.append_assoc, List.length_cons, pieces, List.take_left' hitem,
      List.drop_left' hitem, ih hitems, List.map_cons]

theorem length_flatMap_of_forall {α β : Type} {size : Nat} {write : α → List β} {items : List α}
    (h : ∀ item ∈ items, (write item).length = size) :
    (items.flatMap write).length = size * items.length := by
  rw [List.length_flatMap, List.map_congr_left h, List.map_const', List.sum_replicate_nat,
    Nat.mul_comm]

/-! ## Records -/

theorem length_facetBits (f : Facet) : (facetBits f).length = 12 := rfl

/-- The twelve singles of a triangle take up forty-eight bytes. -/
theorem length_singles (f : Facet) :
    ((facetBits f).flatMap fun bits => bytesOf 4 bits.toNat).length = 48 :=
  length_flatMap_of_forall fun (bits : UInt32) _ => length_bytesOf 4 bits.toNat

theorem length_recordOf (f : Facet) : (recordOf f).length = 50 := by
  rw [recordOf, List.length_append, length_singles, length_bytesOf]

/-- Behind the singles of a record stand two zero bytes. -/
theorem drop_recordOf (f : Facet) : (recordOf f).drop 48 = [0, 0] := by
  rw [recordOf, List.drop_left' (length_singles f)]
  rfl

/-- The bits of the twelve singles are read back from a record. -/
theorem readRecord_recordOf (f : Facet) : readRecord (recordOf f) = facetBits f := by
  have hpieces := pieces_flatMap
    (fun bits (_ : bits ∈ facetBits f) => length_bytesOf 4 bits.toNat) (bytesOf 2 0)
  rw [length_facetBits] at hpieces
  rw [readRecord, recordOf, hpieces, List.map_map]
  exact List.map_id'' ofNat_valueOf_bytesOf _

/-! ## Files -/

/-- The records of a mesh. -/
theorem length_records (mesh : Mesh) :
    (mesh.triangles.flatMap fun face => recordOf (facet mesh face)).length =
      50 * mesh.triangles.length :=
  length_flatMap_of_forall fun face _ => length_recordOf (facet mesh face)

theorem length_bytes (mesh : Mesh) : (bytes mesh).length = 84 + 50 * mesh.triangles.length := by
  rw [bytes, List.length_append, List.length_append, List.length_replicate, length_bytesOf,
    length_records]

/-- Eighty bytes of nothing and the number of triangles stand before the records. -/
theorem bytes_split (mesh : Mesh) :
    (bytes mesh).take 80 = List.replicate 80 0 ∧
    ((bytes mesh).drop 80).take 4 = bytesOf 4 mesh.triangles.length ∧
    (bytes mesh).drop 84 = mesh.triangles.flatMap fun face => recordOf (facet mesh face) := by
  have hheader : (List.replicate 80 (0 : UInt8)).length = 80 := List.length_replicate
  have hcount := length_bytesOf 4 mesh.triangles.length
  refine ⟨?zeros, ?count, ?records⟩
  case zeros => rw [bytes, List.append_assoc, List.take_left' hheader]
  case count => rw [bytes, List.append_assoc, List.drop_left' hheader, List.take_left' hcount]
  case records =>
    rw [bytes, List.drop_left']
    rw [List.length_append, hheader, hcount]

/-- Behind the header the records of the triangles are cut apart. -/
theorem pieces_bytes (mesh : Mesh) :
    pieces 50 mesh.triangles.length ((bytes mesh).drop 84) =
      mesh.triangles.map fun face => recordOf (facet mesh face) := by
  obtain ⟨-, -, hrecords⟩ := bytes_split mesh
  rw [hrecords, ← List.append_nil (List.flatMap _ _)]
  exact pieces_flatMap (fun face _ => length_recordOf (facet mesh face)) []

/-- **Reading gives the bits of every triangle, in order.** -/
theorem read?_bytes {mesh : Mesh} (hcount : mesh.triangles.length < 2 ^ 32) :
    read? (bytes mesh) = some (mesh.triangles.map fun face => facetBits (facet mesh face)) := by
  obtain ⟨-, hnumber, -⟩ := bytes_split mesh
  have hvalue : valueOf (((bytes mesh).drop 80).take 4) = mesh.triangles.length := by
    rw [hnumber, valueOf_bytesOf hcount]
  rw [read?, hvalue, if_pos (length_bytes mesh), pieces_bytes, List.map_map]
  exact congrArg some (List.map_congr_left fun face _ => readRecord_recordOf (facet mesh face))

/-! ## What is read -/

/-- The triangle that twelve singles stand for: the normal, then the corners. -/
def Facet.ofBits? : List UInt32 → Option Facet
  | [n₁, n₂, n₃, a₁, a₂, a₃, b₁, b₂, b₃, c₁, c₂, c₃] =>
    some ⟨⟨.ofBits n₁, .ofBits n₂, .ofBits n₃⟩, ⟨.ofBits a₁, .ofBits a₂, .ofBits a₃⟩,
      ⟨.ofBits b₁, .ofBits b₂, .ofBits b₃⟩, ⟨.ofBits c₁, .ofBits c₂, .ofBits c₃⟩⟩
  | _ => none

theorem Facet.ofBits?_facetBits (f : Facet) : ofBits? (facetBits f) = some f := by
  simp [ofBits?, facetBits, pointBits, Float32.ofBits_toBits]

/-- The triangles in a file, if it has exactly as many as it says. -/
def readFacets? (file : List UInt8) : Option (List Facet) :=
  (read? file).bind (·.mapM Facet.ofBits?)

/-- **Reading gives back what is written about every triangle, in order.** -/
theorem readFacets?_bytes {mesh : Mesh} (hcount : mesh.triangles.length < 2 ^ 32) :
    readFacets? (bytes mesh) = some (mesh.triangles.map (facet mesh)) := by
  have hread : Facet.ofBits? ∘ (fun face => facetBits (facet mesh face)) =
      fun face => pure (facet mesh face) :=
    funext fun face => Facet.ofBits?_facetBits (facet mesh face)
  rw [readFacets?, read?_bytes hcount, Option.bind_some, List.mapM_map, hread, List.mapM_pure]
  rfl

theorem getElem?_positions {mesh : Mesh} {i : Nat} (hi : i < mesh.positions.size) :
    mesh.positions[i]? = some (mesh.point i) := by
  rw [point, Array.getD_eq_getD_getElem?, Array.getElem?_eq_getElem hi, Option.getD_some]

/-- What a record says about the triangle between three points: the corners in single precision, and
so the cross product of two sides divided by its length, or zeros if that is next to nothing. -/
structure Facet.Shows (f : Facet) (p q r : Vec3) : Prop where
  a : f.a = ⟨p.x.toFloat32, p.y.toFloat32, p.z.toFloat32⟩
  b : f.b = ⟨q.x.toFloat32, q.y.toFloat32, q.z.toFloat32⟩
  c : f.c = ⟨r.x.toFloat32, r.y.toFloat32, r.z.toFloat32⟩
  normal :
    let u : Vec3 := ⟨q.x - p.x, q.y - p.y, q.z - p.z⟩
    let v : Vec3 := ⟨r.x - p.x, r.y - p.y, r.z - p.z⟩
    let n : Vec3 := ⟨u.y * v.z - u.z * v.y, u.z * v.x - u.x * v.z, u.x * v.y - u.y * v.x⟩
    let length := (n.x * n.x + n.y * n.y + n.z * n.z).sqrt
    let zero := (0.0 : Float).toFloat32
    f.normal =
      if length ≤ 1e-12 then ⟨zero, zero, zero⟩
      else ⟨(n.x / length).toFloat32, (n.y / length).toFloat32, (n.z / length).toFloat32⟩

/-- What is written about a triangle is what a record must say. -/
theorem facet_shows (mesh : Mesh) (face : Face) :
    (facet mesh face).Shows (mesh.point face.a) (mesh.point face.b) (mesh.point face.c) where
  a := rfl
  b := rfl
  c := rfl
  normal := by
    intro u v n length zero
    have hunit : n.unit? tiny = if length ≤ 1e-12 then none else some (n.div length) := rfl
    show ((n.unit? tiny).getD .zero).toSingle = _
    rw [hunit]
    split <;> rfl

/-- **The bytes of a mesh are read back as its triangles.**  There are eighty-four bytes and fifty
for each triangle, eighty of them nothing and four the number of triangles; the last two of every
fifty are nothing again.  In every place stands the triangle of that place: its corners in order,
every coordinate rounded to a single, and the direction of the cross product of two sides, or zeros
if the triangle has no area. -/
theorem bytes_decode (mesh : Mesh) (hcount : mesh.triangles.length < 2 ^ 32)
    (inRange : ∀ face ∈ mesh.triangles, face.a < mesh.positions.size ∧
      face.b < mesh.positions.size ∧ face.c < mesh.positions.size) :
    (bytes mesh).length = 84 + 50 * mesh.triangles.length ∧
    (bytes mesh).take 80 = List.replicate 80 0 ∧
    valueOf (((bytes mesh).drop 80).take 4) = mesh.triangles.length ∧
    (∀ record ∈ pieces 50 mesh.triangles.length ((bytes mesh).drop 84),
      record.drop 48 = [0, 0]) ∧
    ∃ facets, readFacets? (bytes mesh) = some facets ∧
      facets.length = mesh.triangles.length ∧
      ∀ (k : Nat) (face : Face), mesh.triangles[k]? = some face →
        ∃ p q r f, mesh.positions[face.a]? = some p ∧ mesh.positions[face.b]? = some q ∧
          mesh.positions[face.c]? = some r ∧ facets[k]? = some f ∧ f.Shows p q r := by
  obtain ⟨hzeros, hnumber, -⟩ := bytes_split mesh
  refine ⟨length_bytes mesh, hzeros, hnumber ▸ valueOf_bytesOf hcount, ?ends, _,
    readFacets?_bytes hcount, List.length_map .., fun k face hface => ?place⟩
  case ends =>
    intro record hrecord
    rw [pieces_bytes] at hrecord
    obtain ⟨face, -, rfl⟩ := List.mem_map.1 hrecord
    exact drop_recordOf (facet mesh face)
  case place =>
    obtain ⟨ha, hb, hc⟩ := inRange face (List.mem_of_getElem? hface)
    have hfacet : (mesh.triangles.map (facet mesh))[k]? = some (facet mesh face) := by
      rw [List.getElem?_map, hface, Option.map_some]
    exact ⟨_, _, _, facet mesh face, getElem?_positions ha, getElem?_positions hb,
      getElem?_positions hc, hfacet, facet_shows mesh face⟩

/-- Of two triangles the second has its corners in one line: they are read back in order, with no
direction. -/
theorem bytes_decode_flat :
    ∃ (mesh : Mesh) (facets : List Facet) (f : Facet),
      mesh.triangles.length < 2 ^ 32 ∧ (bytes mesh).length = 184 ∧
      readFacets? (bytes mesh) = some facets ∧ facets[1]? = some f ∧
      f.a = ⟨(2.0 : Float).toFloat32, (0.0 : Float).toFloat32, (0.0 : Float).toFloat32⟩ ∧
      f.b = ⟨(0.0 : Float).toFloat32, (0.0 : Float).toFloat32, (0.0 : Float).toFloat32⟩ ∧
      f.c = ⟨(1.0 : Float).toFloat32, (0.0 : Float).toFloat32, (0.0 : Float).toFloat32⟩ ∧
      f.normal = ⟨(0.0 : Float).toFloat32, (0.0 : Float).toFloat32, (0.0 : Float).toFloat32⟩ := by
  let p : Vec3 := ⟨2.0, 0.0, 0.0⟩
  let q : Vec3 := ⟨0.0, 0.0, 0.0⟩
  let r : Vec3 := ⟨1.0, 0.0, 0.0⟩
  let mesh : Mesh := ⟨#[q, r, ⟨0.0, 1.0, 0.0⟩, p], [⟨0, 1, 2⟩, ⟨3, 0, 1⟩]⟩
  obtain ⟨hlength, -, -, -, facets, hread, -, hfacets⟩ := bytes_decode mesh (by decide) (by decide)
  obtain ⟨_, _, _, f, ⟨⟩, ⟨⟩, ⟨⟩, hf, shows⟩ := hfacets 1 ⟨3, 0, 1⟩ rfl
  have hflat : f.normal =
      ⟨(0.0 : Float).toFloat32, (0.0 : Float).toFloat32, (0.0 : Float).toFloat32⟩ :=
    shows.normal.trans (if_pos (by decide +kernel))
  exact ⟨mesh, facets, f, by decide, hlength, hread, hf, shows.a, shows.b, shows.c, hflat⟩

end Crochet.Mesh.Stl
