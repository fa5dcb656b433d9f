/-!
# Characters of names

The characters from `80` on that names in documents may hold. The table has one number per maximal run of characters of one
kind: four times its first character, plus one if these may begin a name, plus two if they may only go on.
-/

namespace Coupling.Xml.NameTable

/-- Runs that start from `00B7`. -/
def runs00B7 : Array Nat :=
  #[0x2de, 0x2e0, 0x301, 0x35c, 0x361, 0x3dc, 0x3e1, 0x4c8, 0x4d1, 0x4fc, 0x505, 0x524, 0x529, 0x5fc, 0x601, 0x710,
    0x735, 0x7c4, 0x7d1, 0x7d8, 0x7e9, 0x860, 0x941, 0xaa4, 0xaed, 0xb08, 0xb42, 0xb48, 0xc02, 0xd18, 0xd82, 0xd88,
    0xe19, 0xe1e, 0xe21, 0xe2c, 0xe31, 0xe34, 0xe39, 0xe88, 0xe8d, 0xf3c, 0xf41, 0xf5c, 0xf69, 0xf6c, 0xf71, 0xf74,
    0xf79, 0xf7c, 0xf81, 0xf84, 0xf89, 0xfd0, 0x1005, 0x1034, 0x1039, 0x1140, 0x1145, 0x1174, 0x1179, 0x1208, 0x120e,
    0x121c, 0x1241, 0x1314, 0x131d, 0x1324, 0x132d, 0x1334, 0x1341, 0x13b0, 0x13b9, 0x13d8, 0x13e1, 0x13e8, 0x14c5,
    0x155c, 0x1565, 0x1568, 0x1585, 0x161c, 0x1646, 0x1688, 0x168e, 0x16e8, 0x16ee, 0x16f8, 0x16fe, 0x1700, 0x1706,
    0x170c, 0x1712, 0x1714, 0x1741, 0x17ac, 0x17c1, 0x17cc, 0x1885, 0x18ec, 0x1902, 0x1905, 0x192e, 0x194c, 0x1982,
    0x19a8, 0x19c2, 0x19c5, 0x1ae0, 0x1ae9, 0x1afc, 0x1b01, 0x1b3c, 0x1b41, 0x1b50, 0x1b55, 0x1b5a, 0x1b95, 0x1b9e,
    0x1ba4, 0x1baa, 0x1bb8, 0x1bc2, 0x1be8, 0x2406, 0x2410, 0x2415, 0x24e8, 0x24f2, 0x24f5, 0x24fa, 0x2538, 0x2546,
    0x2554, 0x2561, 0x258a, 0x2590, 0x259a, 0x25c0, 0x2606, 0x2610, 0x2615, 0x2634, 0x263d, 0x2644, 0x264d, 0x26a4,
    0x26a9, 0x26c4, 0x26c9]

/-- Runs that start from `09B3`. -/
def runs09B3 : Array Nat :=
  #[0x26cc, 0x26d9, 0x26e8, 0x26f2, 0x26f4, 0x26fa, 0x2714, 0x271e, 0x2724, 0x272e, 0x2738, 0x275e, 0x2760, 0x2771,
    0x2778, 0x277d, 0x278a, 0x2790, 0x279a, 0x27c1, 0x27c8, 0x280a, 0x280c, 0x2815, 0x282c, 0x283d, 0x2844, 0x284d,
    0x28a4, 0x28a9, 0x28c4, 0x28c9, 0x28d0, 0x28d5, 0x28dc, 0x28e1, 0x28e8, 0x28f2, 0x28f4, 0x28fa, 0x290c, 0x291e,
    0x2924, 0x292e, 0x2938, 0x2965, 0x2974, 0x2979, 0x297c, 0x299a, 0x29c9, 0x29d4, 0x2a06, 0x2a10, 0x2a15, 0x2a30,
    0x2a35, 0x2a38, 0x2a3d, 0x2a48, 0x2a4d, 0x2aa4, 0x2aa9, 0x2ac4, 0x2ac9, 0x2ad0, 0x2ad5, 0x2ae8, 0x2af2, 0x2af5,
    0x2afa, 0x2b18, 0x2b1e, 0x2b28, 0x2b2e, 0x2b38, 0x2b81, 0x2b84, 0x2b9a, 0x2bc0, 0x2c06, 0x2c10, 0x2c15, 0x2c34,
    0x2c3d, 0x2c44, 0x2c4d, 0x2ca4, 0x2ca9, 0x2cc4, 0x2cc9, 0x2cd0, 0x2cd9, 0x2ce8, 0x2cf2, 0x2cf5, 0x2cfa, 0x2d10,
    0x2d1e, 0x2d24, 0x2d2e, 0x2d38, 0x2d5a, 0x2d60, 0x2d71, 0x2d78, 0x2d7d, 0x2d88, 0x2d9a, 0x2dc0, 0x2e0a, 0x2e10,
    0x2e15, 0x2e2c, 0x2e39, 0x2e44, 0x2e49, 0x2e58, 0x2e65, 0x2e6c, 0x2e71, 0x2e74, 0x2e79, 0x2e80, 0x2e8d, 0x2e94,
    0x2ea1, 0x2eac, 0x2eb9, 0x2ed8, 0x2edd, 0x2ee8, 0x2efa, 0x2f0c, 0x2f1a, 0x2f24, 0x2f2a, 0x2f38, 0x2f5e, 0x2f60,
    0x2f9e, 0x2fc0, 0x3006, 0x3010, 0x3015, 0x3034, 0x3039, 0x3044, 0x3049, 0x30a4]

/-- Runs that start from `0C2A`. -/
def runs0C2A : Array Nat :=
  #[0x30a9, 0x30d0, 0x30d5, 0x30e8, 0x30fa, 0x3114, 0x311a, 0x3124, 0x312a, 0x3138, 0x3156, 0x315c, 0x3181, 0x3188,
    0x319a, 0x31c0, 0x320a, 0x3210, 0x3215, 0x3234, 0x3239, 0x3244, 0x3249, 0x32a4, 0x32a9, 0x32d0, 0x32d5, 0x32e8,
    0x32fa, 0x3314, 0x331a, 0x3324, 0x332a, 0x3338, 0x3356, 0x335c, 0x3379, 0x337c, 0x3381, 0x3388, 0x339a, 0x33c0,
    0x340a, 0x3410, 0x3415, 0x3434, 0x3439, 0x3444, 0x3449, 0x34a4, 0x34a9, 0x34e8, 0x34fa, 0x3510, 0x351a, 0x3524,
    0x352a, 0x3538, 0x355e, 0x3560, 0x3581, 0x3588, 0x359a, 0x35c0, 0x3805, 0x38bc, 0x38c1, 0x38c6, 0x38c9, 0x38d2,
    0x38ec, 0x3901, 0x391a, 0x393c, 0x3942, 0x3968, 0x3a05, 0x3a0c, 0x3a11, 0x3a14, 0x3a1d, 0x3a24, 0x3a29, 0x3a2c,
    0x3a35, 0x3a38, 0x3a51, 0x3a60, 0x3a65, 0x3a80, 0x3a85, 0x3a90, 0x3a95, 0x3a98, 0x3a9d, 0x3aa0, 0x3aa9, 0x3ab0,
    0x3ab5, 0x3abc, 0x3ac1, 0x3ac6, 0x3ac9, 0x3ad2, 0x3ae8, 0x3aee, 0x3af5, 0x3af8, 0x3b01, 0x3b14, 0x3b1a, 0x3b1c,
    0x3b22, 0x3b38, 0x3b42, 0x3b68, 0x3c62, 0x3c68, 0x3c82, 0x3ca8, 0x3cd6, 0x3cd8, 0x3cde, 0x3ce0, 0x3ce6, 0x3ce8,
    0x3cfa, 0x3d01, 0x3d20, 0x3d25, 0x3da8, 0x3dc6, 0x3e14, 0x3e1a, 0x3e30, 0x3e42, 0x3e58, 0x3e5e, 0x3e60, 0x3e66,
    0x3eb8, 0x3ec6, 0x3ee0, 0x3ee6, 0x3ee8, 0x4281, 0x4318, 0x4341, 0x43dc, 0x4401]

/-- Runs that start from `1101`. -/
def runs1101 : Array Nat :=
  #[0x4404, 0x4409, 0x4410, 0x4415, 0x4420, 0x4425, 0x4428, 0x442d, 0x4434, 0x4439, 0x444c, 0x44f1, 0x44f4, 0x44f9,
    0x44fc, 0x4501, 0x4504, 0x4531, 0x4534, 0x4539, 0x453c, 0x4541, 0x4544, 0x4551, 0x4558, 0x4565, 0x4568, 0x457d,
    0x4588, 0x458d, 0x4590, 0x4595, 0x4598, 0x459d, 0x45a0, 0x45a5, 0x45a8, 0x45b5, 0x45bc, 0x45c9, 0x45d0, 0x45d5,
    0x45d8, 0x4679, 0x467c, 0x46a1, 0x46a4, 0x46ad, 0x46b0, 0x46b9, 0x46c0, 0x46dd, 0x46e4, 0x46e9, 0x46ec, 0x46f1,
    0x470c, 0x47ad, 0x47b0, 0x47c1, 0x47c4, 0x47e5, 0x47e8, 0x7801, 0x7a70, 0x7a81, 0x7be8, 0x7c01, 0x7c58, 0x7c61,
    0x7c78, 0x7c81, 0x7d18, 0x7d21, 0x7d38, 0x7d41, 0x7d60, 0x7d65, 0x7d68, 0x7d6d, 0x7d70, 0x7d75, 0x7d78, 0x7d7d,
    0x7df8, 0x7e01, 0x7ed4, 0x7ed9, 0x7ef4, 0x7ef9, 0x7efc, 0x7f09, 0x7f14, 0x7f19, 0x7f34, 0x7f41, 0x7f50, 0x7f59,
    0x7f70, 0x7f81, 0x7fb4, 0x7fc9, 0x7fd4, 0x7fd9, 0x7ff4, 0x8342, 0x8374, 0x8386, 0x8388, 0x8499, 0x849c, 0x84a9,
    0x84b0, 0x84b9, 0x84bc, 0x8601, 0x860c, 0xc016, 0xc018, 0xc01d, 0xc020, 0xc085, 0xc0aa, 0xc0c0, 0xc0c6, 0xc0d8,
    0xc105, 0xc254, 0xc266, 0xc26c, 0xc276, 0xc27c, 0xc285, 0xc3ec, 0xc3f2, 0xc3fc, 0xc415, 0xc4b4, 0x13801, 0x27e98,
    0x2b001, 0x35e90]

/-- All runs, in order. -/
def runs : List (Array Nat) := [runs00B7, runs09B3, runs0C2A, runs1101]

end Coupling.Xml.NameTable
