import RootFinding.Scalar

/-!
# Vectors and matrices

A vector carries its length and a matrix its shape, so no operation here can meet operands of
different sizes. Sums run from the first index up and start at zero: the order is part of the
meaning where addition rounds.
-/

namespace RootFinding

/-- A matrix as the vector of its rows. -/
abbrev DenseMatrix (K : Type) (rows columns : Nat) : Type :=
  Vector (Vector K columns) rows

/-- A list of entries as a vector of a given size, if that is its size. -/
def sized? {α : Type} (n : Nat) (entries : Array α) : Option (Vector α n) :=
  if size : entries.size = n then some ⟨entries, size⟩ else none

/-- The same, where a lone entry stands for any number of copies of itself. -/
def spread? {α : Type} (n : Nat) (entries : Array α) : Option (Vector α n) :=
  match entries.toList with
  | [entry] => some (Vector.replicate n entry)
  | _ => sized? n entries

/-- Lists of entries as vectors of one size, if they have it or just one entry. -/
def spreadPair? {α : Type} (u v : Array α) : Option ((n : Nat) × Vector α n × Vector α n) :=
  let size := if u.size = 1 then v.size else u.size
  match spread? size u, spread? size v with
  | some left, some right => some ⟨size, left, right⟩
  | _, _ => none

section Arithmetic

variable {K : Type} [Arithmetic K] {m n : Nat}

/-- The sum of the products of matching entries. -/
def dot (u v : Vector K n) : K :=
  Fin.foldl n (fun total i => total + u.get i * v.get i) 0.0

/-- The vector whose entries are all zero. -/
def zeros (n : Nat) : Vector K n :=
  Vector.replicate n 0.0

def difference (u v : Vector K n) : Vector K n :=
  Vector.zipWith (fun a b => a - b) u v

/-- The vector with every sign turned. -/
def opposite (v : Vector K n) : Vector K n :=
  v.map fun a => -a

/-- The point reached from `x` by walking `alpha` times the step `dx`. -/
def moved (x : Vector K n) (alpha : K) (dx : Vector K n) : Vector K n :=
  Vector.zipWith (fun a d => a + alpha * d) x dx

def midpoint (u v : Vector K n) : Vector K n :=
  Vector.zipWith (fun a b => (a + b) / 2.0) u v

def allFinite (v : Vector K n) : Bool :=
  v.all Arithmetic.isFinite

@[simp]
theorem getElem_zeros (i : Nat) (inside : i < n) :
    (zeros n : Vector K n)[i] = 0.0 := by
  simp [zeros]

@[simp]
theorem getElem_difference (u v : Vector K n) (i : Nat) (inside : i < n) :
    (difference u v)[i] = u[i] - v[i] := by
  simp [difference]

@[simp]
theorem getElem_opposite (v : Vector K n) (i : Nat) (inside : i < n) :
    (opposite v)[i] = -v[i] := by
  simp [opposite]

@[simp]
theorem getElem_moved (x dx : Vector K n) (alpha : K) (i : Nat) (inside : i < n) :
    (moved x alpha dx)[i] = x[i] + alpha * dx[i] := by
  simp [moved]

@[simp]
theorem getElem_midpoint (u v : Vector K n) (i : Nat) (inside : i < n) :
    (midpoint u v)[i] = (u[i] + v[i]) / 2.0 := by
  simp [midpoint]

/-- A vector is finite just when each of its entries is. -/
theorem allFinite_iff (v : Vector K n) :
    allFinite v = true ↔ ∀ entry ∈ v, Arithmetic.isFinite entry = true := by
  simp only [allFinite, Vector.all_eq_true_iff_forall_mem]

namespace DenseMatrix

/-- The entry in a row and a column. -/
def entry (A : DenseMatrix K m n) (i : Fin m) (j : Fin n) : K :=
  (A.get i).get j

/-- The product of a matrix with a column. -/
def apply (A : DenseMatrix K m n) (v : Vector K n) : Vector K m :=
  A.map fun row => dot row v

/-- Ones on the diagonal and zeros elsewhere. -/
def identity (n : Nat) : DenseMatrix K n n :=
  Vector.ofFn fun i => Vector.ofFn fun j => if i = j then 1.0 else 0.0

/-- Every entry of every row is finite. -/
def entriesFinite (A : DenseMatrix K m n) : Bool :=
  A.all allFinite

@[simp]
theorem getElem_apply (A : DenseMatrix K m n) (v : Vector K n) (i : Nat) (inside : i < m) :
    (A.apply v)[i] = dot A[i] v := by
  simp [apply]

@[simp]
theorem getElem_identity (i j : Nat) (rowInside : i < n) (columnInside : j < n) :
    (identity n : DenseMatrix K n n)[i][j] = if i = j then 1.0 else 0.0 := by
  simp [identity]

end DenseMatrix

end Arithmetic

section Scalar

variable {K : Type} [Scalar K] {n : Nat}

def euclideanNorm (v : Vector K n) : K :=
  Scalar.sqrt (dot v v)

/-- The damped move against the residual, shorter than one hundredth. -/
def dampedStep (fx : Vector K n) : Vector K n :=
  let size : K := 0.01 / (1.0 + euclideanNorm fx)
  fx.map fun value => -size * value

end Scalar

end RootFinding
