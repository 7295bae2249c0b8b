/-
SharpEmit/Proofs/Document/QualifiedNames.lean

Dotted names of types and packages.  A dotted name is cut into a package and a name, and a
package is given as a dotted text or as a list of segments.

Main result: a class made from a dotted name has that name; a type gets its name and its
package back from its dotted name exactly if neither has a dot within it; and a package is
read back from the list of its segments always, and from its dotted text exactly if no segment
is empty or has a dot within it (`dotted_names_agree`).
-/
import SharpEmit.Proofs.Document.RoundTrip
import SharpEmit.Proofs.Text.Dotted

namespace SharpEmit

namespace TypeRef

/-- A class has the dotted name that it was made from. -/
theorem qualifiedName_ofQualified (s : String) (args : List TypeRef) :
    (ofQualified s args).qualifiedName = s := by
  show Text.dotted ((Text.splitQualified s).1 ++ [(Text.splitQualified s).2]) = s
  rw [← Text.segments_eq, Text.dotted_segments]

theorem ofQualified_eq_iff {s name : String} {package : List String} (args : List TypeRef) :
    (ofQualified s args).name = name ∧ (ofQualified s args).package = package ↔
      Text.segments s = package ++ [name] := by
  rw [← Text.splitQualified_eq_iff, Prod.ext_iff]
  exact and_comm

/-- A type gets its name and its package back exactly if no dot stands within them. -/
theorem ofQualified_qualifiedName_iff (t : TypeRef) (args : List TypeRef) :
    (ofQualified t.qualifiedName args).name = t.name ∧
        (ofQualified t.qualifiedName args).package = t.package ↔
      ∀ part ∈ t.package ++ [t.name], '.' ∉ part.toList := by
  -- the name is a segment, so there is one even without a package
  have hne : t.package ++ [t.name] ≠ [] := by simp
  rw [ofQualified_eq_iff, qualifiedName, Text.segments_dotted_iff hne]

end TypeRef

namespace Document

theorem packageAt_dotted_iff (place : Pointer) (parts : List String) :
    packageAt place (.str (Text.dotted parts)) = .ok parts ↔
      ∀ part ∈ parts, part ≠ "" ∧ '.' ∉ part.toList := by
  rw [packageAt, Except.ok.injEq, Text.filter_segments_dotted_iff]

/-- Cutting at the dots and joining with dots agree, for every text, every type and every list
of segments. -/
theorem dotted_names_agree (s : String) (t : TypeRef) (args : List TypeRef) (place : Pointer)
    (parts : List String) :
    (TypeRef.ofQualified s args).qualifiedName = s ∧
      ((TypeRef.ofQualified t.qualifiedName args).name = t.name ∧
          (TypeRef.ofQualified t.qualifiedName args).package = t.package ↔
        ∀ part ∈ t.package ++ [t.name], '.' ∉ part.toList) ∧
      packageAt place (.arr (parts.map .str)) = .ok parts ∧
      (packageAt place (.str (Text.dotted parts)) = .ok parts ↔
        ∀ part ∈ parts, part ≠ "" ∧ '.' ∉ part.toList) :=
  ⟨TypeRef.qualifiedName_ofQualified s args, TypeRef.ofQualified_qualifiedName_iff t args,
    packageAt_ofStrings parts place, packageAt_dotted_iff place parts⟩

/-- A text with dots at both ends and two in a row, a type with empty segments, and a package
without any. -/
theorem dotted_names_agree_loose :
    TypeRef.ofQualified ".a..b." [] = { name := "", package := ["", "a", "", "b"] } ∧
      (TypeRef.ofQualified ".a..b." []).qualifiedName = ".a..b." ∧
      (TypeRef.ofQualified
        (TypeRef.qualifiedName { name := "b", package := ["", ""] }) []).package = ["", ""] ∧
      packageAt .root (.arr [.str "flash", .str "events"]) = .ok ["flash", "events"] ∧
      packageAt .root (.str "flash.events") = .ok ["flash", "events"] := by
  obtain ⟨hjoined, htype, hlist, htext⟩ :=
    dotted_names_agree ".a..b." { name := "b", package := ["", ""] } [] .root ["flash", "events"]
  have hundotted : ∀ part ∈ ["", "", "b"], '.' ∉ part.toList := by decide +kernel
  have hproper : ∀ part ∈ ["flash", "events"], part ≠ "" ∧ '.' ∉ part.toList := by decide +kernel
  exact ⟨by decide +kernel, hjoined, (htype.mpr hundotted).2, hlist, htext.mpr hproper⟩

end Document

end SharpEmit
