/-!
Powers of numbers. They stay what they are where an algebra library with powers of its own is in
scope.
-/
namespace StoreQuery

@[default_instance 20000]
instance (priority := high) powNat : Pow Nat Nat := ⟨Nat.pow⟩

@[default_instance 20000]
instance (priority := high) powInt : Pow Int Nat := ⟨Int.pow⟩

end StoreQuery
