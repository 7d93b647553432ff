/-
Lagotto.Text.Paths — the path of an address, and paths of files.

`uriPath` is the path component an RFC 3986 parser gives. `joinPath`,
`basename`, `dirname` and `extname` are the operations on file names, and
`removeFirst` takes the first occurrence of a text away. Everything computes
on lists of characters. The lemmas take a path apart that was put together
from a directory, a stem and an extension.
-/
import Mathlib.Data.List.Infix
import Mathlib.Data.List.TakeWhile

namespace Lagotto.Text

/-! ## Addresses -/

/-- The characters an address may have. -/
def uriChar (c : Char) : Bool :=
  c.isAlphanum || "-._~:/?#[]@!$&'()*+,;=%".toList.contains c

/-- What a percent sign is followed by. -/
def hexDigit (c : Char) : Bool := c.isDigit || "abcdefABCDEF".toList.contains c

def percentsComplete : List Char → Bool
  | '%' :: a :: b :: rest => hexDigit a && hexDigit b && percentsComplete rest
  | '%' :: _ => false
  | _ :: rest => percentsComplete rest
  | [] => true

/-- The address behind its scheme, and whether it had one. A colon in the
first segment that does not end a scheme is an error. -/
def afterScheme (url : List Char) : Option (Bool × List Char) :=
  let first := url.takeWhile (fun c => !":/?#".toList.contains c)
  match url.dropWhile (fun c => !":/?#".toList.contains c) with
  | ':' :: rest =>
    if first.head?.any Char.isAlpha then some (true, rest) else none
  | _ => some (false, url)

/-- `URI.parse(url).path`: none where the parser raises, and where the
address has no path because what follows the scheme is opaque. -/
def uriPath (url : List Char) : Option (List Char) :=
  if url.all uriChar && percentsComplete url then
    match afterScheme url with
    | none => none
    | some (_, '/' :: '/' :: rest) =>
      some ((rest.dropWhile (fun c => !"/?#".toList.contains c)).takeWhile
        (fun c => !"?#".toList.contains c))
    | some (scheme, rest) =>
      if scheme && rest.head? != some '/' then none
      else some (rest.takeWhile (fun c => !"?#".toList.contains c))
  else
    none

/-! ## Files -/

/-- `File.basename`, for a path that does not end in a slash. -/
def basename (path : List Char) : List Char := (path.reverse.takeWhile (· != '/')).reverse

/-- `File.dirname`. -/
def dirname (path : List Char) : List Char :=
  match path.reverse.dropWhile (· != '/') with
  | [] => ['.']
  | slash =>
    match slash.dropWhile (· == '/') with
    | [] => ['/']
    | rest => rest.reverse

/-- `File.extname` of a base name: from the last dot on, unless that is one
of the leading dots or ends the name. -/
def extname (base : List Char) : List Char :=
  let name := base.dropWhile (· == '.')
  let ext := (name.reverse.takeWhile (· != '.')).reverse
  if name.contains '.' && !ext.isEmpty then '.' :: ext else []

/-- A directory without the slashes at its end. -/
def trimmed (dir : List Char) : List Char := (dir.reverse.dropWhile (· == '/')).reverse

/-- `Pathname.new(dir).join(name)` for a name without slashes. -/
def joinPath (dir name : List Char) : List Char :=
  if name = [] ∨ name = ['.'] then
    if (trimmed dir).isEmpty then dir else trimmed dir
  else if name = ['.', '.'] then dirname (trimmed dir)
  else trimmed dir ++ '/' :: name

/-- `text.sub(pattern, "")` for a pattern that is a string. -/
def removeFirst (pattern : List Char) : List Char → List Char
  | [] => []
  | c :: rest =>
    if pattern.isPrefixOf (c :: rest) then (c :: rest).drop pattern.length
    else c :: removeFirst pattern rest

/-! ## Paths that were put together -/

/-- A name that is not the directory itself or the one above. -/
def ProperName (name : List Char) : Prop := name ≠ [] ∧ name ≠ ['.'] ∧ name ≠ ['.', '.']

instance (name : List Char) : Decidable (ProperName name) :=
  inferInstanceAs (Decidable (_ ∧ _ ∧ _))

theorem joinPath_of_proper {name : List Char} (h : ProperName name) (dir : List Char) :
    joinPath dir name = trimmed dir ++ '/' :: name := by
  rw [joinPath, if_neg (not_or.mpr ⟨h.1, h.2.1⟩), if_neg h.2.2]

theorem basename_append {base : List Char} (h : '/' ∉ base) (dir : List Char) :
    basename (dir ++ '/' :: base) = base := by
  have hbase : ∀ c ∈ base.reverse, (c != '/') = true := by
    intro c hc
    rw [bne_iff_ne]
    rintro rfl
    exact h (List.mem_reverse.mp hc)
  rw [basename, List.reverse_append, List.reverse_cons, List.append_assoc, List.singleton_append,
    List.takeWhile_append_of_pos hbase, List.takeWhile_cons_of_neg (by simp), List.append_nil,
    List.reverse_reverse]

/-- The directory does not depend on the name. -/
theorem dirname_append {base other : List Char} (h : '/' ∉ base) (h' : '/' ∉ other)
    (dir : List Char) : dirname (dir ++ '/' :: base) = dirname (dir ++ '/' :: other) := by
  have hdrop : ∀ {base : List Char}, '/' ∉ base →
      (dir ++ '/' :: base).reverse.dropWhile (· != '/') = '/' :: dir.reverse := by
    intro base h
    have hbase : ∀ c ∈ base.reverse, (c != '/') = true := by
      intro c hc
      rw [bne_iff_ne]
      rintro rfl
      exact h (List.mem_reverse.mp hc)
    rw [List.reverse_append, List.reverse_cons, List.append_assoc, List.singleton_append,
      List.dropWhile_append_of_pos hbase, List.dropWhile_cons_of_neg (by simp)]
  rw [dirname, dirname, hdrop h, hdrop h']

/-- What follows the last dot tells two names apart. -/
theorem append_dot_inj {stem stem' ext ext' : List Char} (h : '.' ∉ ext) (h' : '.' ∉ ext')
    (heq : stem ++ '.' :: ext = stem' ++ '.' :: ext') : stem = stem' ∧ ext = ext' := by
  have hcons : ∀ {ext more rest : List Char}, '.' ∉ ext → '.' :: ext = more ++ '.' :: rest →
      more = [] := by
    intro ext more rest hdot hmore
    cases more with
    | nil => rfl
    | cons c more =>
      rw [List.cons_append] at hmore
      exact absurd ((List.cons.inj hmore).2 ▸ List.mem_append_right more List.mem_cons_self) hdot
  rcases List.append_eq_append_iff.mp heq with ⟨more, hstem, hmore⟩ | ⟨more, hstem, hmore⟩
  · obtain rfl := hcons h hmore
    exact ⟨by rw [hstem, List.append_nil], (List.cons.inj hmore).2⟩
  · obtain rfl := hcons h' hmore
    exact ⟨by rw [hstem, List.append_nil], (List.cons.inj hmore).2.symm⟩

theorem extname_append {stem ext : List Char} (hext : ext ≠ []) (hdot : '.' ∉ ext)
    (hstem : ∃ c ∈ stem, c ≠ '.') : extname (stem ++ '.' :: ext) = '.' :: ext := by
  have hkept : stem.dropWhile (· == '.') ≠ [] := by
    obtain ⟨c, hc, hne⟩ := hstem
    intro hnil
    exact hne (by simpa using List.dropWhile_eq_nil_iff.mp hnil c hc)
  have hname : (stem ++ '.' :: ext).dropWhile (· == '.') =
      stem.dropWhile (· == '.') ++ '.' :: ext := by
    rw [List.dropWhile_append, if_neg (by simpa using hkept)]
  have hlast : ∀ c ∈ ext.reverse, (c != '.') = true := by
    intro c hc
    rw [bne_iff_ne]
    rintro rfl
    exact hdot (List.mem_reverse.mp hc)
  have htake : ((stem.dropWhile (· == '.') ++ '.' :: ext).reverse.takeWhile (· != '.')).reverse =
      ext := by
    rw [List.reverse_append, List.reverse_cons, List.append_assoc, List.singleton_append,
      List.takeWhile_append_of_pos hlast, List.takeWhile_cons_of_neg (by simp), List.append_nil,
      List.reverse_reverse]
  rw [extname]
  simp only [hname, htake]
  rw [if_pos (by simp [hext])]

theorem removeFirst_append {stem ext : List Char} (hdot : '.' ∉ ext)
    (h : ¬ ('.' :: ext) <:+: stem) : removeFirst ('.' :: ext) (stem ++ '.' :: ext) = stem := by
  induction stem with
  | nil =>
    rw [List.nil_append, removeFirst, if_pos (by simp), List.drop_length]
  | cons c stem ih =>
    have hno : ¬ ('.' :: ext) <+: c :: stem ++ '.' :: ext := by
      rintro ⟨behind, heq⟩
      rcases List.append_eq_append_iff.mp heq with ⟨more, hstem, _⟩ | ⟨more, hpattern, hmore⟩
      · exact h ⟨[], more, by rw [List.nil_append, hstem]⟩
      · -- an occurrence across the end of the stem has a second dot
        cases more with
        | nil =>
          exact h ⟨[], [], by rw [List.nil_append, hpattern, List.append_nil, List.append_nil]⟩
        | cons d more =>
          obtain ⟨rfl, _⟩ := List.cons.inj hmore
          rw [List.cons_append] at hpattern
          obtain ⟨_, hext⟩ := List.cons.inj hpattern
          exact hdot (hext ▸ List.mem_append_right stem (List.mem_cons_self ..))
    rw [List.cons_append, removeFirst, if_neg (by rwa [List.isPrefixOf_iff_prefix]),
      ih fun hsub => h (hsub.trans (List.suffix_cons c stem).isInfix)]

end Lagotto.Text
