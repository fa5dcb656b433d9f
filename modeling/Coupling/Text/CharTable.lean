/-!
# Character classes

The Unicode general categories (version 14.0), merged into the ten classes that the formats of this library tell apart.
The table holds one number per maximal run of code points of one class: sixteen times its first code point, plus the
index of the class.
-/

namespace Coupling.CharTable

/-- Runs that start from `0000`. -/
def runs0000 : Array Nat :=
  #[0x0, 0x209, 0x211, 0x248, 0x251, 0x304, 0x3a1, 0x412, 0x5b1, 0x5f7, 0x601, 0x612, 0x7b1, 0x7f0, 0xa09, 0xa11,
    0xa28, 0xa61, 0xaa2, 0xab1, 0xad0, 0xae1, 0xb26, 0xb41, 0xb52, 0xb61, 0xb96, 0xba2, 0xbb1, 0xbc6, 0xbf1, 0xc02,
    0xd71, 0xd82, 0xf71, 0xf82, 0x2c21, 0x2c62, 0x2d21, 0x2e02, 0x2e51, 0x2ec2, 0x2ed1, 0x2ee2, 0x2ef1, 0x3003,
    0x3702, 0x3751, 0x3762, 0x3780, 0x37a2, 0x37e1, 0x37f2, 0x3800, 0x3841, 0x3862, 0x3871, 0x3882, 0x38b0, 0x38c2,
    0x38d0, 0x38e2, 0x3a20, 0x3a32, 0x3f61, 0x3f72, 0x4821, 0x4833, 0x4881, 0x48a2, 0x5300, 0x5312, 0x5570, 0x5592,
    0x55a1, 0x5602, 0x5891, 0x58b0, 0x58d1, 0x58f8, 0x5900, 0x5913, 0x5be1, 0x5bf3, 0x5c01, 0x5c13, 0x5c31, 0x5c43,
    0x5c61, 0x5c73, 0x5c80, 0x5d02, 0x5eb0, 0x5ef2, 0x5f31, 0x5f50, 0x6061, 0x60b8, 0x60c1, 0x6103, 0x61b1, 0x61c0,
    0x61d1, 0x6202, 0x64b3, 0x6604, 0x66a1, 0x66e2, 0x6703, 0x6712, 0x6d41, 0x6d52, 0x6d63, 0x6dd0, 0x6de1, 0x6df3,
    0x6e52, 0x6e73, 0x6e91, 0x6ea3, 0x6ee2, 0x6f04, 0x6fa2, 0x6fd1, 0x6ff2, 0x7001, 0x70e0, 0x7102, 0x7113, 0x7122,
    0x7303, 0x74b0, 0x74d2, 0x7a63, 0x7b12, 0x7b20, 0x7c04, 0x7ca2, 0x7eb3, 0x7f42, 0x7f61, 0x7fa2, 0x7fb0, 0x7fd3,
    0x7fe8, 0x8002, 0x8163, 0x81a2, 0x81b3, 0x8242, 0x8253, 0x8282, 0x8293, 0x82e0, 0x8301, 0x83f0, 0x8402, 0x8593,
    0x85c0, 0x85e1, 0x85f0, 0x8602, 0x86b0, 0x8702, 0x8881, 0x8892, 0x88f0, 0x8983, 0x8a02, 0x8ca3, 0x8e20, 0x8e33,
    0x9042, 0x93a3, 0x93d2, 0x93e3, 0x9502, 0x9513, 0x9582, 0x9623, 0x9641, 0x9664, 0x9701, 0x9712, 0x9813, 0x9840,
    0x9852, 0x98d0, 0x98f2, 0x9910, 0x9932, 0x9a90, 0x9aa2, 0x9b10, 0x9b22, 0x9b30, 0x9b62, 0x9ba0, 0x9bc3, 0x9bd2]

/-- Runs that start from `09BE`. -/
def runs09BE : Array Nat :=
  #[0x9be3, 0x9c50, 0x9c73, 0x9c90, 0x9cb3, 0x9ce2, 0x9cf0, 0x9d73, 0x9d80, 0x9dc2, 0x9de0, 0x9df2, 0x9e23, 0x9e40,
    0x9e64, 0x9f02, 0x9f28, 0x9f46, 0x9fa1, 0x9fb8, 0x9fc2, 0x9fd1, 0x9fe3, 0x9ff0, 0xa013, 0xa040, 0xa052, 0xa0b0,
    0xa0f2, 0xa110, 0xa132, 0xa290, 0xa2a2, 0xa310, 0xa322, 0xa340, 0xa352, 0xa370, 0xa382, 0xa3a0, 0xa3c3, 0xa3d0,
    0xa3e3, 0xa430, 0xa473, 0xa490, 0xa4b3, 0xa4e0, 0xa513, 0xa520, 0xa592, 0xa5d0, 0xa5e2, 0xa5f0, 0xa664, 0xa703,
    0xa722, 0xa753, 0xa761, 0xa770, 0xa813, 0xa840, 0xa852, 0xa8e0, 0xa8f2, 0xa920, 0xa932, 0xaa90, 0xaaa2, 0xab10,
    0xab22, 0xab40, 0xab52, 0xaba0, 0xabc3, 0xabd2, 0xabe3, 0xac60, 0xac73, 0xaca0, 0xacb3, 0xace0, 0xad02, 0xad10,
    0xae02, 0xae23, 0xae40, 0xae64, 0xaf01, 0xaf18, 0xaf20, 0xaf92, 0xafa3, 0xb000, 0xb013, 0xb040, 0xb052, 0xb0d0,
    0xb0f2, 0xb110, 0xb132, 0xb290, 0xb2a2, 0xb310, 0xb322, 0xb340, 0xb352, 0xb3a0, 0xb3c3, 0xb3d2, 0xb3e3, 0xb450,
    0xb473, 0xb490, 0xb4b3, 0xb4e0, 0xb553, 0xb580, 0xb5c2, 0xb5e0, 0xb5f2, 0xb623, 0xb640, 0xb664, 0xb701, 0xb712,
    0xb726, 0xb780, 0xb823, 0xb832, 0xb840, 0xb852, 0xb8b0, 0xb8e2, 0xb910, 0xb922, 0xb960, 0xb992, 0xb9b0, 0xb9c2,
    0xb9d0, 0xb9e2, 0xba00, 0xba32, 0xba50, 0xba82, 0xbab0, 0xbae2, 0xbba0, 0xbbe3, 0xbc30, 0xbc63, 0xbc90, 0xbca3,
    0xbce0, 0xbd02, 0xbd10, 0xbd73, 0xbd80, 0xbe64, 0xbf06, 0xbf31, 0xbf98, 0xbfa1, 0xbfb0, 0xc003, 0xc052, 0xc0d0,
    0xc0e2, 0xc110, 0xc122, 0xc290, 0xc2a2, 0xc3a0, 0xc3c3, 0xc3d2, 0xc3e3, 0xc450, 0xc463, 0xc490, 0xc4a3, 0xc4e0,
    0xc553, 0xc570, 0xc582, 0xc5b0, 0xc5d2, 0xc5e0, 0xc602, 0xc623, 0xc640, 0xc664, 0xc700, 0xc771, 0xc786, 0xc7f1,
    0xc802, 0xc813, 0xc841, 0xc852]

/-- Runs that start from `0C8D`. -/
def runs0C8D : Array Nat :=
  #[0xc8d0, 0xc8e2, 0xc910, 0xc922, 0xca90, 0xcaa2, 0xcb40, 0xcb52, 0xcba0, 0xcbc3, 0xcbd2, 0xcbe3, 0xcc50, 0xcc63,
    0xcc90, 0xcca3, 0xcce0, 0xcd53, 0xcd70, 0xcdd2, 0xcdf0, 0xce02, 0xce23, 0xce40, 0xce64, 0xcf00, 0xcf12, 0xcf30,
    0xd003, 0xd042, 0xd0d0, 0xd0e2, 0xd110, 0xd122, 0xd3b3, 0xd3d2, 0xd3e3, 0xd450, 0xd463, 0xd490, 0xd4a3, 0xd4e2,
    0xd4f1, 0xd500, 0xd542, 0xd573, 0xd586, 0xd5f2, 0xd623, 0xd640, 0xd664, 0xd706, 0xd791, 0xd7a2, 0xd800, 0xd813,
    0xd840, 0xd852, 0xd970, 0xd9a2, 0xdb20, 0xdb32, 0xdbc0, 0xdbd2, 0xdbe0, 0xdc02, 0xdc70, 0xdca3, 0xdcb0, 0xdcf3,
    0xdd50, 0xdd63, 0xdd70, 0xdd83, 0xde00, 0xde64, 0xdf00, 0xdf23, 0xdf41, 0xdf50, 0xe012, 0xe313, 0xe322, 0xe343,
    0xe3b0, 0xe3f8, 0xe402, 0xe473, 0xe4f1, 0xe504, 0xe5a1, 0xe5c0, 0xe812, 0xe830, 0xe842, 0xe850, 0xe862, 0xe8b0,
    0xe8c2, 0xea40, 0xea52, 0xea60, 0xea72, 0xeb13, 0xeb22, 0xeb43, 0xebd2, 0xebe0, 0xec02, 0xec50, 0xec62, 0xec70,
    0xec83, 0xece0, 0xed04, 0xeda0, 0xedc2, 0xee00, 0xf002, 0xf011, 0xf183, 0xf1a1, 0xf204, 0xf2a6, 0xf341, 0xf353,
    0xf361, 0xf373, 0xf381, 0xf393, 0xf3a1, 0xf3e3, 0xf402, 0xf480, 0xf492, 0xf6d0, 0xf713, 0xf851, 0xf863, 0xf882,
    0xf8d3, 0xf980, 0xf993, 0xfbd0, 0xfbe1, 0xfc63, 0xfc71, 0xfcd0, 0xfce1, 0xfdb0, 0x10002, 0x102b3, 0x103f2,
    0x10404, 0x104a1, 0x10502, 0x10563, 0x105a2, 0x105e3, 0x10612, 0x10623, 0x10652, 0x10673, 0x106e2, 0x10713,
    0x10752, 0x10823, 0x108e2, 0x108f3, 0x10904, 0x109a3, 0x109e1, 0x10a02, 0x10c60, 0x10c72, 0x10c80, 0x10cd2,
    0x10ce0, 0x10d02, 0x10fb1, 0x10fc2, 0x12490, 0x124a2, 0x124e0, 0x12502, 0x12570, 0x12582, 0x12590, 0x125a2,
    0x125e0, 0x12602, 0x12890, 0x128a2, 0x128e0, 0x12902, 0x12b10, 0x12b22, 0x12b60, 0x12b82, 0x12bf0]

/-- Runs that start from `12C0`. -/
def runs12C0 : Array Nat :=
  #[0x12c02, 0x12c10, 0x12c22, 0x12c60, 0x12c82, 0x12d70, 0x12d82, 0x13110, 0x13122, 0x13160, 0x13182, 0x135b0,
    0x135d3, 0x13601, 0x13696, 0x137d0, 0x13802, 0x13901, 0x139a0, 0x13a02, 0x13f60, 0x13f82, 0x13fe0, 0x14001,
    0x14012, 0x166d1, 0x166f2, 0x16809, 0x16812, 0x169b1, 0x169d0, 0x16a02, 0x16eb1, 0x16ee5, 0x16f12, 0x16f90,
    0x17002, 0x17123, 0x17160, 0x171f2, 0x17323, 0x17351, 0x17370, 0x17402, 0x17523, 0x17540, 0x17602, 0x176d0,
    0x176e2, 0x17710, 0x17723, 0x17740, 0x17802, 0x17b43, 0x17d41, 0x17d72, 0x17d81, 0x17db8, 0x17dc2, 0x17dd3,
    0x17de0, 0x17e04, 0x17ea0, 0x17f06, 0x17fa0, 0x18001, 0x180b3, 0x180e0, 0x180f3, 0x18104, 0x181a0, 0x18202,
    0x18790, 0x18802, 0x18853, 0x18872, 0x18a93, 0x18aa2, 0x18ab0, 0x18b02, 0x18f60, 0x19002, 0x191f0, 0x19203,
    0x192c0, 0x19303, 0x193c0, 0x19401, 0x19410, 0x19441, 0x19464, 0x19502, 0x196e0, 0x19702, 0x19750, 0x19802,
    0x19ac0, 0x19b02, 0x19ca0, 0x19d04, 0x19da6, 0x19db0, 0x19de1, 0x1a002, 0x1a173, 0x1a1c0, 0x1a1e1, 0x1a202,
    0x1a553, 0x1a5f0, 0x1a603, 0x1a7d0, 0x1a7f3, 0x1a804, 0x1a8a0, 0x1a904, 0x1a9a0, 0x1aa01, 0x1aa72, 0x1aa81,
    0x1aae0, 0x1ab03, 0x1abe1, 0x1abf3, 0x1acf0, 0x1b003, 0x1b052, 0x1b343, 0x1b452, 0x1b4d0, 0x1b504, 0x1b5a1,
    0x1b6b3, 0x1b741, 0x1b7f0, 0x1b803, 0x1b832, 0x1ba13, 0x1bae2, 0x1bb04, 0x1bba2, 0x1be63, 0x1bf40, 0x1bfc1,
    0x1c002, 0x1c243, 0x1c380, 0x1c3b1, 0x1c404, 0x1c4a0, 0x1c4d2, 0x1c504, 0x1c5a2, 0x1c7e1, 0x1c802, 0x1c890,
    0x1c902, 0x1cbb0, 0x1cbd2, 0x1cc01, 0x1cc80, 0x1cd03, 0x1cd31, 0x1cd43, 0x1ce92, 0x1ced3, 0x1cee2, 0x1cf43,
    0x1cf52, 0x1cf73, 0x1cfa2, 0x1cfb0, 0x1d002, 0x1dc03, 0x1e002, 0x1f160, 0x1f182, 0x1f1e0, 0x1f202, 0x1f460,
    0x1f482, 0x1f4e0, 0x1f502, 0x1f580, 0x1f592, 0x1f5a0, 0x1f5b2, 0x1f5c0, 0x1f5d2, 0x1f5e0, 0x1f5f2, 0x1f7e0,
    0x1f802, 0x1fb50, 0x1fb62, 0x1fbd1, 0x1fbe2, 0x1fbf1, 0x1fc22, 0x1fc50]

/-- Runs that start from `1FC6`. -/
def runs1FC6 : Array Nat :=
  #[0x1fc62, 0x1fcd1, 0x1fd02, 0x1fd40, 0x1fd62, 0x1fdc0, 0x1fdd1, 0x1fe02, 0x1fed1, 0x1ff00, 0x1ff22, 0x1ff50,
    0x1ff62, 0x1ffd1, 0x1fff0, 0x20009, 0x200b0, 0x20101, 0x20289, 0x202a0, 0x202f9, 0x20301, 0x203f7, 0x20411,
    0x20547, 0x20551, 0x205f9, 0x20600, 0x20706, 0x20712, 0x20720, 0x20746, 0x207a1, 0x207f2, 0x20806, 0x208a1,
    0x208f0, 0x20902, 0x209d0, 0x20a08, 0x20c10, 0x20d03, 0x20dd1, 0x20e13, 0x20e21, 0x20e53, 0x20f10, 0x21001,
    0x21022, 0x21031, 0x21072, 0x21081, 0x210a2, 0x21141, 0x21152, 0x21161, 0x21192, 0x211e1, 0x21242, 0x21251,
    0x21262, 0x21271, 0x21282, 0x21291, 0x212a2, 0x212e1, 0x212f2, 0x213a1, 0x213c2, 0x21401, 0x21452, 0x214a1,
    0x214e2, 0x214f1, 0x21506, 0x21605, 0x21832, 0x21855, 0x21896, 0x218a1, 0x218c0, 0x21901, 0x24270, 0x24401,
    0x244b0, 0x24606, 0x249c1, 0x24ea6, 0x25001, 0x27766, 0x27941, 0x2b740, 0x2b761, 0x2b960, 0x2b971, 0x2c002,
    0x2ce51, 0x2ceb2, 0x2cef3, 0x2cf22, 0x2cf40, 0x2cf91, 0x2cfd6, 0x2cfe1, 0x2d002, 0x2d260, 0x2d272, 0x2d280,
    0x2d2d2, 0x2d2e0, 0x2d302, 0x2d680, 0x2d6f2, 0x2d701, 0x2d710, 0x2d7f3, 0x2d802, 0x2d970, 0x2da02, 0x2da70,
    0x2da82, 0x2daf0, 0x2db02, 0x2db70, 0x2db82, 0x2dbf0, 0x2dc02, 0x2dc70, 0x2dc82, 0x2dcf0, 0x2dd02, 0x2dd70,
    0x2dd82, 0x2ddf0, 0x2de03, 0x2e001, 0x2e2f2, 0x2e301, 0x2e5e0, 0x2e801, 0x2e9a0, 0x2e9b1, 0x2ef40, 0x2f001,
    0x2fd60, 0x2ff01, 0x2ffc0, 0x30009, 0x30011, 0x30052, 0x30075, 0x30081, 0x30215, 0x302a3, 0x30301, 0x30312,
    0x30361, 0x30385, 0x303b2, 0x303d1, 0x30400, 0x30412, 0x30970, 0x30993, 0x309b1, 0x309d2, 0x30a01, 0x30a12,
    0x30fb1, 0x30fc2, 0x31000, 0x31052, 0x31300, 0x31312, 0x318f0, 0x31901, 0x31926, 0x31961, 0x31a02, 0x31c01,
    0x31e40, 0x31f02, 0x32001, 0x321f0, 0x32206, 0x322a1, 0x32486, 0x32501, 0x32516, 0x32601, 0x32806, 0x328a1,
    0x32b16, 0x32c01, 0x34002, 0x4dc01, 0x4e002, 0xa48d0, 0xa4901, 0xa4c70]

/-- Runs that start from `A4D0`. -/
def runsA4D0 : Array Nat :=
  #[0xa4d02, 0xa4fe1, 0xa5002, 0xa60d1, 0xa6102, 0xa6204, 0xa62a2, 0xa62c0, 0xa6402, 0xa66f3, 0xa6701, 0xa6743,
    0xa67e1, 0xa67f2, 0xa69e3, 0xa6a02, 0xa6e65, 0xa6f03, 0xa6f21, 0xa6f80, 0xa7001, 0xa7172, 0xa7201, 0xa7222,
    0xa7891, 0xa78b2, 0xa7cb0, 0xa7d02, 0xa7d20, 0xa7d32, 0xa7d40, 0xa7d52, 0xa7da0, 0xa7f22, 0xa8023, 0xa8032,
    0xa8063, 0xa8072, 0xa80b3, 0xa80c2, 0xa8233, 0xa8281, 0xa82c3, 0xa82d0, 0xa8306, 0xa8361, 0xa8388, 0xa8391,
    0xa83a0, 0xa8402, 0xa8741, 0xa8780, 0xa8803, 0xa8822, 0xa8b43, 0xa8c60, 0xa8ce1, 0xa8d04, 0xa8da0, 0xa8e03,
    0xa8f22, 0xa8f81, 0xa8fb2, 0xa8fc1, 0xa8fd2, 0xa8ff3, 0xa9004, 0xa90a2, 0xa9263, 0xa92e1, 0xa9302, 0xa9473,
    0xa9540, 0xa95f1, 0xa9602, 0xa97d0, 0xa9803, 0xa9842, 0xa9b33, 0xa9c11, 0xa9ce0, 0xa9cf2, 0xa9d04, 0xa9da0,
    0xa9de1, 0xa9e02, 0xa9e53, 0xa9e62, 0xa9f04, 0xa9fa2, 0xa9ff0, 0xaa002, 0xaa293, 0xaa370, 0xaa402, 0xaa433,
    0xaa442, 0xaa4c3, 0xaa4e0, 0xaa504, 0xaa5a0, 0xaa5c1, 0xaa602, 0xaa771, 0xaa7a2, 0xaa7b3, 0xaa7e2, 0xaab03,
    0xaab12, 0xaab23, 0xaab52, 0xaab73, 0xaab92, 0xaabe3, 0xaac02, 0xaac13, 0xaac22, 0xaac30, 0xaadb2, 0xaade1,
    0xaae02, 0xaaeb3, 0xaaf01, 0xaaf22, 0xaaf53, 0xaaf70, 0xab012, 0xab070, 0xab092, 0xab0f0, 0xab112, 0xab170,
    0xab202, 0xab270, 0xab282, 0xab2f0, 0xab302, 0xab5b1, 0xab5c2, 0xab6a1, 0xab6c0, 0xab702, 0xabe33, 0xabeb1,
    0xabec3, 0xabee0, 0xabf04, 0xabfa0, 0xac002, 0xd7a40, 0xd7b02, 0xd7c70, 0xd7cb2, 0xd7fc0, 0xf9002, 0xfa6e0,
    0xfa702, 0xfada0, 0xfb002, 0xfb070, 0xfb132, 0xfb180, 0xfb1d2, 0xfb1e3, 0xfb1f2, 0xfb291, 0xfb2a2, 0xfb370,
    0xfb382, 0xfb3d0, 0xfb3e2, 0xfb3f0, 0xfb402, 0xfb420, 0xfb432, 0xfb450, 0xfb462, 0xfbb21, 0xfbc30, 0xfbd32,
    0xfd3e1, 0xfd502, 0xfd900, 0xfd922, 0xfdc80, 0xfdcf1, 0xfdd00, 0xfdf02, 0xfdfc8, 0xfdfd1, 0xfe003, 0xfe101,
    0xfe1a0, 0xfe203, 0xfe301, 0xfe337, 0xfe351, 0xfe4d7, 0xfe501, 0xfe530]

/-- Runs that start from `FE54`. -/
def runsFE54 : Array Nat :=
  #[0xfe541, 0xfe670, 0xfe681, 0xfe698, 0xfe6a1, 0xfe6c0, 0xfe702, 0xfe750, 0xfe762, 0xfefd0, 0xff011, 0xff048,
    0xff051, 0xff104, 0xff1a1, 0xff212, 0xff3b1, 0xff3f7, 0xff401, 0xff412, 0xff5b1, 0xff662, 0xffbf0, 0xffc22,
    0xffc80, 0xffca2, 0xffd00, 0xffd22, 0xffd80, 0xffda2, 0xffdd0, 0xffe08, 0xffe21, 0xffe58, 0xffe70, 0xffe81,
    0xffef0, 0xfffc1, 0xfffe0, 0x100002, 0x1000c0, 0x1000d2, 0x100270, 0x100282, 0x1003b0, 0x1003c2, 0x1003e0,
    0x1003f2, 0x1004e0, 0x100502, 0x1005e0, 0x100802, 0x100fb0, 0x101001, 0x101030, 0x101076, 0x101340, 0x101371,
    0x101405, 0x101756, 0x101791, 0x1018a6, 0x1018c1, 0x1018f0, 0x101901, 0x1019d0, 0x101a01, 0x101a10, 0x101d01,
    0x101fd3, 0x101fe0, 0x102802, 0x1029d0, 0x102a02, 0x102d10, 0x102e03, 0x102e16, 0x102fc0, 0x103002, 0x103206,
    0x103240, 0x1032d2, 0x103415, 0x103422, 0x1034a5, 0x1034b0, 0x103502, 0x103763, 0x1037b0, 0x103802, 0x1039e0,
    0x1039f1, 0x103a02, 0x103c40, 0x103c82, 0x103d01, 0x103d15, 0x103d60, 0x104002, 0x1049e0, 0x104a04, 0x104aa0,
    0x104b02, 0x104d40, 0x104d82, 0x104fc0, 0x105002, 0x105280, 0x105302, 0x105640, 0x1056f1, 0x105702, 0x1057b0,
    0x1057c2, 0x1058b0, 0x1058c2, 0x105930, 0x105942, 0x105960, 0x105972, 0x105a20, 0x105a32, 0x105b20, 0x105b32,
    0x105ba0, 0x105bb2, 0x105bd0, 0x106002, 0x107370, 0x107402, 0x107560, 0x107602, 0x107680, 0x107802, 0x107860,
    0x107872, 0x107b10, 0x107b22, 0x107bb0, 0x108002, 0x108060, 0x108082, 0x108090, 0x1080a2, 0x108360, 0x108372,
    0x108390, 0x1083c2, 0x1083d0, 0x1083f2, 0x108560, 0x108571, 0x108586, 0x108602, 0x108771, 0x108796, 0x108802,
    0x1089f0, 0x108a76, 0x108b00, 0x108e02, 0x108f30, 0x108f42, 0x108f60, 0x108fb6, 0x109002, 0x109166, 0x1091c0,
    0x1091f1, 0x109202, 0x1093a0, 0x1093f1, 0x109400, 0x109802, 0x109b80, 0x109bc6, 0x109be2, 0x109c06, 0x109d00,
    0x109d26, 0x10a002, 0x10a013, 0x10a040, 0x10a053, 0x10a070, 0x10a0c3, 0x10a102, 0x10a140, 0x10a152, 0x10a180,
    0x10a192, 0x10a360, 0x10a383, 0x10a3b0, 0x10a3f3, 0x10a406, 0x10a490, 0x10a501, 0x10a590, 0x10a602]

/-- Runs that start from `10A7D`. -/
def runs10A7D : Array Nat :=
  #[0x10a7d6, 0x10a7f1, 0x10a802, 0x10a9d6, 0x10aa00, 0x10ac02, 0x10ac81, 0x10ac92, 0x10ae53, 0x10ae70, 0x10aeb6,
    0x10af01, 0x10af70, 0x10b002, 0x10b360, 0x10b391, 0x10b402, 0x10b560, 0x10b586, 0x10b602, 0x10b730, 0x10b786,
    0x10b802, 0x10b920, 0x10b991, 0x10b9d0, 0x10ba96, 0x10bb00, 0x10c002, 0x10c490, 0x10c802, 0x10cb30, 0x10cc02,
    0x10cf30, 0x10cfa6, 0x10d002, 0x10d243, 0x10d280, 0x10d304, 0x10d3a0, 0x10e606, 0x10e7f0, 0x10e802, 0x10eaa0,
    0x10eab3, 0x10ead1, 0x10eae0, 0x10eb02, 0x10eb20, 0x10f002, 0x10f1d6, 0x10f272, 0x10f280, 0x10f302, 0x10f463,
    0x10f516, 0x10f551, 0x10f5a0, 0x10f702, 0x10f823, 0x10f861, 0x10f8a0, 0x10fb02, 0x10fc56, 0x10fcc0, 0x10fe02,
    0x10ff70, 0x110003, 0x110032, 0x110383, 0x110471, 0x1104e0, 0x110526, 0x110664, 0x110703, 0x110712, 0x110733,
    0x110752, 0x110760, 0x1107f3, 0x110832, 0x110b03, 0x110bb1, 0x110bd0, 0x110be1, 0x110c23, 0x110c30, 0x110d02,
    0x110e90, 0x110f04, 0x110fa0, 0x111003, 0x111032, 0x111273, 0x111350, 0x111364, 0x111401, 0x111442, 0x111453,
    0x111472, 0x111480, 0x111502, 0x111733, 0x111741, 0x111762, 0x111770, 0x111803, 0x111832, 0x111b33, 0x111c12,
    0x111c51, 0x111c93, 0x111cd1, 0x111ce3, 0x111d04, 0x111da2, 0x111db1, 0x111dc2, 0x111dd1, 0x111e00, 0x111e16,
    0x111f50, 0x112002, 0x112120, 0x112132, 0x1122c3, 0x112381, 0x1123e3, 0x1123f0, 0x112802, 0x112870, 0x112882,
    0x112890, 0x1128a2, 0x1128e0, 0x1128f2, 0x1129e0, 0x1129f2, 0x112a91, 0x112aa0, 0x112b02, 0x112df3, 0x112eb0,
    0x112f04, 0x112fa0, 0x113003, 0x113040, 0x113052, 0x1130d0, 0x1130f2, 0x113110, 0x113132, 0x113290, 0x1132a2,
    0x113310, 0x113322, 0x113340, 0x113352, 0x1133a0, 0x1133b3, 0x1133d2, 0x1133e3, 0x113450, 0x113473, 0x113490,
    0x1134b3, 0x1134e0, 0x113502, 0x113510, 0x113573, 0x113580, 0x1135d2, 0x113623, 0x113640, 0x113663, 0x1136d0,
    0x113703, 0x113750, 0x114002, 0x114353, 0x114472, 0x1144b1, 0x114504, 0x1145a1, 0x1145c0, 0x1145d1, 0x1145e3,
    0x1145f2, 0x114620, 0x114802, 0x114b03, 0x114c42, 0x114c61, 0x114c72, 0x114c80, 0x114d04, 0x114da0, 0x115802,
    0x115af3, 0x115b60]

/-- Runs that start from `115B8`. -/
def runs115B8 : Array Nat :=
  #[0x115b83, 0x115c11, 0x115d82, 0x115dc3, 0x115de0, 0x116002, 0x116303, 0x116411, 0x116442, 0x116450, 0x116504,
    0x1165a0, 0x116601, 0x1166d0, 0x116802, 0x116ab3, 0x116b82, 0x116b91, 0x116ba0, 0x116c04, 0x116ca0, 0x117002,
    0x1171b0, 0x1171d3, 0x1172c0, 0x117304, 0x1173a6, 0x1173c1, 0x117402, 0x117470, 0x118002, 0x1182c3, 0x1183b1,
    0x1183c0, 0x118a02, 0x118e04, 0x118ea6, 0x118f30, 0x118ff2, 0x119070, 0x119092, 0x1190a0, 0x1190c2, 0x119140,
    0x119152, 0x119170, 0x119182, 0x119303, 0x119360, 0x119373, 0x119390, 0x1193b3, 0x1193f2, 0x119403, 0x119412,
    0x119423, 0x119441, 0x119470, 0x119504, 0x1195a0, 0x119a02, 0x119a80, 0x119aa2, 0x119d13, 0x119d80, 0x119da3,
    0x119e12, 0x119e21, 0x119e32, 0x119e43, 0x119e50, 0x11a002, 0x11a013, 0x11a0b2, 0x11a333, 0x11a3a2, 0x11a3b3,
    0x11a3f1, 0x11a473, 0x11a480, 0x11a502, 0x11a513, 0x11a5c2, 0x11a8a3, 0x11a9a1, 0x11a9d2, 0x11a9e1, 0x11aa30,
    0x11ab02, 0x11af90, 0x11c002, 0x11c090, 0x11c0a2, 0x11c2f3, 0x11c370, 0x11c383, 0x11c402, 0x11c411, 0x11c460,
    0x11c504, 0x11c5a6, 0x11c6d0, 0x11c701, 0x11c722, 0x11c900, 0x11c923, 0x11ca80, 0x11ca93, 0x11cb70, 0x11d002,
    0x11d070, 0x11d082, 0x11d0a0, 0x11d0b2, 0x11d313, 0x11d370, 0x11d3a3, 0x11d3b0, 0x11d3c3, 0x11d3e0, 0x11d3f3,
    0x11d462, 0x11d473, 0x11d480, 0x11d504, 0x11d5a0, 0x11d602, 0x11d660, 0x11d672, 0x11d690, 0x11d6a2, 0x11d8a3,
    0x11d8f0, 0x11d903, 0x11d920, 0x11d933, 0x11d982, 0x11d990, 0x11da04, 0x11daa0, 0x11ee02, 0x11ef33, 0x11ef71,
    0x11ef90, 0x11fb02, 0x11fb10, 0x11fc06, 0x11fd51, 0x11fdd8, 0x11fe11, 0x11ff20, 0x11fff1, 0x120002, 0x1239a0,
    0x124005, 0x1246f0, 0x124701, 0x124750, 0x124802, 0x125440, 0x12f902, 0x12ff11, 0x12ff30, 0x130002, 0x1342f0,
    0x144002, 0x146470, 0x168002, 0x16a390, 0x16a402, 0x16a5f0, 0x16a604, 0x16a6a0, 0x16a6e1, 0x16a702, 0x16abf0,
    0x16ac04, 0x16aca0, 0x16ad02, 0x16aee0, 0x16af03, 0x16af51, 0x16af60, 0x16b002, 0x16b303, 0x16b371, 0x16b402,
    0x16b441, 0x16b460, 0x16b504, 0x16b5a0, 0x16b5b6, 0x16b620, 0x16b632, 0x16b780, 0x16b7d2, 0x16b900, 0x16e402,
    0x16e806, 0x16e971]

/-- Runs that start from `16E9B`. -/
def runs16E9B : Array Nat :=
  #[0x16e9b0, 0x16f002, 0x16f4b0, 0x16f4f3, 0x16f502, 0x16f513, 0x16f880, 0x16f8f3, 0x16f932, 0x16fa00, 0x16fe02,
    0x16fe21, 0x16fe32, 0x16fe43, 0x16fe50, 0x16ff03, 0x16ff20, 0x170002, 0x187f80, 0x188002, 0x18cd60, 0x18d002,
    0x18d090, 0x1aff02, 0x1aff40, 0x1aff52, 0x1affc0, 0x1affd2, 0x1afff0, 0x1b0002, 0x1b1230, 0x1b1502, 0x1b1530,
    0x1b1642, 0x1b1680, 0x1b1702, 0x1b2fc0, 0x1bc002, 0x1bc6b0, 0x1bc702, 0x1bc7d0, 0x1bc802, 0x1bc890, 0x1bc902,
    0x1bc9a0, 0x1bc9c1, 0x1bc9d3, 0x1bc9f1, 0x1bca00, 0x1cf003, 0x1cf2e0, 0x1cf303, 0x1cf470, 0x1cf501, 0x1cfc40,
    0x1d0001, 0x1d0f60, 0x1d1001, 0x1d1270, 0x1d1291, 0x1d1653, 0x1d16a1, 0x1d16d3, 0x1d1730, 0x1d17b3, 0x1d1831,
    0x1d1853, 0x1d18c1, 0x1d1aa3, 0x1d1ae1, 0x1d1eb0, 0x1d2001, 0x1d2423, 0x1d2451, 0x1d2460, 0x1d2e06, 0x1d2f40,
    0x1d3001, 0x1d3570, 0x1d3606, 0x1d3790, 0x1d4002, 0x1d4550, 0x1d4562, 0x1d49d0, 0x1d49e2, 0x1d4a00, 0x1d4a22,
    0x1d4a30, 0x1d4a52, 0x1d4a70, 0x1d4a92, 0x1d4ad0, 0x1d4ae2, 0x1d4ba0, 0x1d4bb2, 0x1d4bc0, 0x1d4bd2, 0x1d4c40,
    0x1d4c52, 0x1d5060, 0x1d5072, 0x1d50b0, 0x1d50d2, 0x1d5150, 0x1d5162, 0x1d51d0, 0x1d51e2, 0x1d53a0, 0x1d53b2,
    0x1d53f0, 0x1d5402, 0x1d5450, 0x1d5462, 0x1d5470, 0x1d54a2, 0x1d5510, 0x1d5522, 0x1d6a60, 0x1d6a82, 0x1d6c11,
    0x1d6c22, 0x1d6db1, 0x1d6dc2, 0x1d6fb1, 0x1d6fc2, 0x1d7151, 0x1d7162, 0x1d7351, 0x1d7362, 0x1d74f1, 0x1d7502,
    0x1d76f1, 0x1d7702, 0x1d7891, 0x1d78a2, 0x1d7a91, 0x1d7aa2, 0x1d7c31, 0x1d7c42, 0x1d7cc0, 0x1d7ce4, 0x1d8001,
    0x1da003, 0x1da371, 0x1da3b3, 0x1da6d1, 0x1da753, 0x1da761, 0x1da843, 0x1da851, 0x1da8c0, 0x1da9b3, 0x1daa00,
    0x1daa13, 0x1dab00, 0x1df002, 0x1df1f0, 0x1e0003, 0x1e0070, 0x1e0083, 0x1e0190, 0x1e01b3, 0x1e0220, 0x1e0233,
    0x1e0250, 0x1e0263, 0x1e02b0, 0x1e1002, 0x1e12d0, 0x1e1303, 0x1e1372, 0x1e13e0, 0x1e1404, 0x1e14a0, 0x1e14e2,
    0x1e14f1, 0x1e1500, 0x1e2902, 0x1e2ae3, 0x1e2af0, 0x1e2c02, 0x1e2ec3, 0x1e2f04, 0x1e2fa0, 0x1e2ff8, 0x1e3000,
    0x1e7e02, 0x1e7e70, 0x1e7e82, 0x1e7ec0, 0x1e7ed2, 0x1e7ef0, 0x1e7f02, 0x1e7ff0, 0x1e8002, 0x1e8c50, 0x1e8c76,
    0x1e8d03, 0x1e8d70]

/-- Runs that start from `1E900`. -/
def runs1E900 : Array Nat :=
  #[0x1e9002, 0x1e9443, 0x1e94b2, 0x1e94c0, 0x1e9504, 0x1e95a0, 0x1e95e1, 0x1e9600, 0x1ec716, 0x1ecac1, 0x1ecad6,
    0x1ecb08, 0x1ecb16, 0x1ecb50, 0x1ed016, 0x1ed2e1, 0x1ed2f6, 0x1ed3e0, 0x1ee002, 0x1ee040, 0x1ee052, 0x1ee200,
    0x1ee212, 0x1ee230, 0x1ee242, 0x1ee250, 0x1ee272, 0x1ee280, 0x1ee292, 0x1ee330, 0x1ee342, 0x1ee380, 0x1ee392,
    0x1ee3a0, 0x1ee3b2, 0x1ee3c0, 0x1ee422, 0x1ee430, 0x1ee472, 0x1ee480, 0x1ee492, 0x1ee4a0, 0x1ee4b2, 0x1ee4c0,
    0x1ee4d2, 0x1ee500, 0x1ee512, 0x1ee530, 0x1ee542, 0x1ee550, 0x1ee572, 0x1ee580, 0x1ee592, 0x1ee5a0, 0x1ee5b2,
    0x1ee5c0, 0x1ee5d2, 0x1ee5e0, 0x1ee5f2, 0x1ee600, 0x1ee612, 0x1ee630, 0x1ee642, 0x1ee650, 0x1ee672, 0x1ee6b0,
    0x1ee6c2, 0x1ee730, 0x1ee742, 0x1ee780, 0x1ee792, 0x1ee7d0, 0x1ee7e2, 0x1ee7f0, 0x1ee802, 0x1ee8a0, 0x1ee8b2,
    0x1ee9c0, 0x1eea12, 0x1eea40, 0x1eea52, 0x1eeaa0, 0x1eeab2, 0x1eebc0, 0x1eef01, 0x1eef20, 0x1f0001, 0x1f02c0,
    0x1f0301, 0x1f0940, 0x1f0a01, 0x1f0af0, 0x1f0b11, 0x1f0c00, 0x1f0c11, 0x1f0d00, 0x1f0d11, 0x1f0f60, 0x1f1006,
    0x1f10d1, 0x1f1ae0, 0x1f1e61, 0x1f2030, 0x1f2101, 0x1f23c0, 0x1f2401, 0x1f2490, 0x1f2501, 0x1f2520, 0x1f2601,
    0x1f2660, 0x1f3001, 0x1f6d80, 0x1f6dd1, 0x1f6ed0, 0x1f6f01, 0x1f6fd0, 0x1f7001, 0x1f7740, 0x1f7801, 0x1f7d90,
    0x1f7e01, 0x1f7ec0, 0x1f7f01, 0x1f7f10, 0x1f8001, 0x1f80c0, 0x1f8101, 0x1f8480, 0x1f8501, 0x1f85a0, 0x1f8601,
    0x1f8880, 0x1f8901, 0x1f8ae0, 0x1f8b01, 0x1f8b20, 0x1f9001, 0x1fa540, 0x1fa601, 0x1fa6e0, 0x1fa701, 0x1fa750,
    0x1fa781, 0x1fa7d0, 0x1fa801, 0x1fa870, 0x1fa901, 0x1faad0, 0x1fab01, 0x1fabb0, 0x1fac01, 0x1fac60, 0x1fad01,
    0x1fada0, 0x1fae01, 0x1fae80, 0x1faf01, 0x1faf70, 0x1fb001, 0x1fb930, 0x1fb941, 0x1fbcb0, 0x1fbf04, 0x1fbfa0,
    0x200002, 0x2a6e00, 0x2a7002, 0x2b7390, 0x2b7402, 0x2b81e0, 0x2b8202, 0x2cea20, 0x2ceb02, 0x2ebe10, 0x2f8002,
    0x2fa1e0, 0x300002, 0x3134b0, 0xe01003, 0xe01f00]

/-- All runs, in increasing order. -/
def runs : List (Array Nat) :=
  [runs0000, runs09BE, runs0C8D, runs12C0, runs1FC6, runsA4D0,
    runsFE54, runs10A7D, runs115B8, runs16E9B, runs1E900]

end Coupling.CharTable
