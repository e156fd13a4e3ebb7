import SecureInbox.Bytes.Basic

/-! # A directory of files

Files and folders are kept by name; the name of one in a folder has the folders
around it before it, with slashes between. -/
set_option autoImplicit false

namespace SecureInbox

/-- Files by name, and the names of folders. -/
structure Directory where
  files : List (String × Bytes)
  folders : List String

namespace Directory

def empty : Directory := ⟨[], []⟩

def read? (d : Directory) (name : String) : Option Bytes := d.files.lookup name

def erase (d : Directory) (name : String) : Directory :=
  { d with files := d.files.filter fun f => f.1 != name }

/-- Writes a file, over one of that name. -/
def write (d : Directory) (name : String) (content : Bytes) : Directory :=
  { d with files := (name, content) :: (d.erase name).files }

/-- Gives a file or an empty folder another name, over a file that has it. -/
def rename (d : Directory) (source target : String) : Directory :=
  match d.read? source with
  | none => { d with folders := d.folders.map fun f => if f = source then target else f }
  | some content => (d.erase source).write target content

/-- Writes at the end of a file, which is made if it is not there. -/
def append (d : Directory) (name : String) (content : Bytes) : Directory :=
  d.write name ((d.read? name).getD [] ++ content)

theorem read?_erase_self (d : Directory) (name : String) : (d.erase name).read? name = none := by
  simp only [read?, erase, List.lookup_eq_none_iff, List.mem_filter, bne_iff_ne, and_imp]
  intro f _ h
  simpa using fun e => h e.symm

theorem lookup_filter_ne (files : List (String × Bytes)) {name other : String} (h : other ≠ name) :
    (files.filter fun f => f.1 != name).lookup other = files.lookup other := by
  induction files with
  | nil => rfl
  | cons f rest ih =>
      by_cases hf : f.1 = name
      · have skip : (other == f.1) = false := by simp [hf, h]
        rw [List.filter_cons_of_neg (by simp [hf]), ih, List.lookup_cons, skip]
      · rw [List.filter_cons_of_pos (by simp [hf]), List.lookup_cons, List.lookup_cons, ih]

theorem read?_erase_of_ne (d : Directory) {name other : String} (h : other ≠ name) :
    (d.erase name).read? other = d.read? other :=
  lookup_filter_ne d.files h

@[simp] theorem read?_write_self (d : Directory) (name : String) (content : Bytes) :
    (d.write name content).read? name = some content := by
  simp [read?, write]

theorem read?_write_of_ne (d : Directory) {name other : String} (content : Bytes)
    (h : other ≠ name) : (d.write name content).read? other = d.read? other := by
  have skip : (other == name) = false := by simp [h]
  simp only [read?, write, List.lookup_cons, skip]
  exact read?_erase_of_ne d h

/-- The name of a file without its folders. -/
def fileOf (name : String) : String :=
  String.ofList (name.toList.reverse.takeWhile (· != '/')).reverse

/-- The folders of a name, with the slash after them. -/
def folderOf (name : String) : String :=
  String.ofList (name.toList.reverse.dropWhile (· != '/')).reverse

/-- The files in the folder of a file, by their names in it. -/
def beside (d : Directory) (name : String) : List (String × Bytes) :=
  (d.files.filter fun f => folderOf f.1 == folderOf name).map fun f => (fileOf f.1, f.2)

end Directory

end SecureInbox
